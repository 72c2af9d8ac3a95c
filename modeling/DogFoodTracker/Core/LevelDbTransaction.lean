import DogFoodTracker.Storage.SortedMap

/-! # Transactions

A transaction holds its own puts and deletions over the committed rows until it is committed.
Its iterator goes through both at once, and finds its place again when rows are put or deleted
under it: it shows at every moment the rows that committing would leave.
-/

namespace DogFoodTracker.Core

open SortedMap

variable {Key Value : Type} [LinearOrder Key]

/-- `deletions_` is a set and `version_` counts the changes. -/
structure LevelDbTransaction (Key Value : Type) where
  db : List (Key × Value)
  mutations : List (Key × Value)
  deletions : List Key
  version : Nat

namespace LevelDbTransaction

/-- A new transaction over committed rows. -/
def opened (db : List (Key × Value)) : LevelDbTransaction Key Value := ⟨db, [], [], 0⟩

def put (t : LevelDbTransaction Key Value) (key : Key) (value : Value) :
    LevelDbTransaction Key Value :=
  { t with
    deletions := t.deletions.filter (· ≠ key)
    mutations := insert key value t.mutations
    version := t.version + 1 }

def delete (t : LevelDbTransaction Key Value) (key : Key) : LevelDbTransaction Key Value :=
  { t with
    deletions := key :: t.deletions
    mutations := erase key t.mutations
    version := t.version + 1 }

def get (t : LevelDbTransaction Key Value) (key : Key) : Option Value :=
  if key ∈ t.deletions then none
  else
    match find key t.mutations with
    | some value => some value
    | none => find key t.db

/-- The rows that `Commit` leaves: a batch of all deletions, then of all puts. -/
def commit (t : LevelDbTransaction Key Value) : List (Key × Value) :=
  t.mutations.foldl (fun rows entry => insert entry.1 entry.2 rows)
    (t.deletions.foldl (fun rows key => erase key rows) t.db)

/-- The rows from where each of its two iterators is; `current` is none where it is not valid. -/
structure Iterator (Key Value : Type) where
  dbIter : List (Key × Value)
  mutationsIter : List (Key × Value)
  lastVersion : Nat
  current : Option (Key × Value)
  isMutation : Bool

namespace Iterator

def updateCurrent (it : Iterator Key Value) : Iterator Key Value :=
  match it.mutationsIter, it.dbIter with
  | [], [] => { it with current := none }
  | [], row :: _ => { it with isMutation := false, current := some row }
  | mutation :: _, [] => { it with isMutation := true, current := some mutation }
  | mutation :: _, row :: _ =>
      -- A mutation comes first, or shadows the row.
      if mutation.1 ≤ row.1 then { it with isMutation := true, current := some mutation }
      else { it with isMutation := false, current := some row }

/-- The loops over what `IsDeleted`. -/
def skipDeleted (t : LevelDbTransaction Key Value) (rows : List (Key × Value)) :
    List (Key × Value) :=
  rows.dropWhile fun row => row.1 ∈ t.deletions

def seek (t : LevelDbTransaction Key Value) (key : Key) (it : Iterator Key Value) :
    Iterator Key Value :=
  updateCurrent { it with
    dbIter := skipDeleted t (lowerBound key t.db)
    mutationsIter := lowerBound key t.mutations
    lastVersion := t.version }

/-- The iterator found again, and whether that took it further. -/
def syncToTransaction (t : LevelDbTransaction Key Value) (it : Iterator Key Value) :
    Iterator Key Value × Bool :=
  match it.current with
  | some entry =>
      if it.lastVersion < t.version then
        match (it.seek t entry.1).current with
        | some found => (it.seek t entry.1, entry.1 < found.1)
        | none => (it.seek t entry.1, false)
      else (it, false)
  | none => (it, false)

def advanceLDB (t : LevelDbTransaction Key Value) (it : Iterator Key Value) :
    Iterator Key Value :=
  { it with dbIter := skipDeleted t it.dbIter.tail }

def advance (t : LevelDbTransaction Key Value) (it : Iterator Key Value) : Iterator Key Value :=
  if it.isMutation then
    -- Both go on where the mutation shadows the row.
    if it.dbIter.head?.map Prod.fst = it.mutationsIter.head?.map Prod.fst then
      { it.advanceLDB t with mutationsIter := it.mutationsIter.tail }
    else { it with mutationsIter := it.mutationsIter.tail }
  else it.advanceLDB t

/-- `Next`, of an iterator that is valid. -/
def next (t : LevelDbTransaction Key Value) (it : Iterator Key Value) : Iterator Key Value :=
  let (it, advanced) := it.syncToTransaction t
  if !advanced && it.current.isSome then (it.advance t).updateCurrent else it

end Iterator

/-! ## What is committed -/

structure WellFormed (t : LevelDbTransaction Key Value) : Prop where
  db : Sorted t.db
  mutations : Sorted t.mutations
  apart : ∀ entry ∈ t.mutations, entry.1 ∉ t.deletions

variable {t : LevelDbTransaction Key Value} {key : Key} {value : Value}

theorem wellFormed_opened {db : List (Key × Value)} (sorted : Sorted db) :
    (opened db).WellFormed where
  db := sorted
  mutations := List.Pairwise.nil
  apart _ member := nomatch member

theorem WellFormed.put (wf : t.WellFormed) (key : Key) (value : Value) :
    (t.put key value).WellFormed where
  db := wf.db
  mutations := wf.mutations.insert key value
  apart entry member := by
    rcases mem_insert member with rfl | member
    · simp [LevelDbTransaction.put]
    · exact fun deleted => wf.apart entry member (List.mem_of_mem_filter deleted)

theorem WellFormed.delete (wf : t.WellFormed) (key : Key) : (t.delete key).WellFormed where
  db := wf.db
  mutations := wf.mutations.erase key
  apart entry member := by
    have other : entry.1 ≠ key := by simpa using (List.mem_filter.mp member).2
    rw [LevelDbTransaction.delete, List.mem_cons, not_or]
    exact ⟨other, wf.apart entry (List.mem_of_mem_filter member)⟩

/-- Reading in the transaction is reading what committing would leave. -/
theorem WellFormed.get_eq (wf : t.WellFormed) (key : Key) : t.get key = find key t.commit := by
  rw [commit, find_foldl_insert wf.mutations, foldl_erase, get]
  have kept := find_filter (fun key => decide (key ∉ t.deletions)) t.db key
  simp only [decide_not] at kept ⊢
  by_cases deleted : key ∈ t.deletions
  · have absent : find key t.mutations = none :=
      find_eq_none fun entry member same => wf.apart entry member (same ▸ deleted)
    rw [if_pos deleted, absent, kept]
    simp [deleted]
  · rw [if_neg deleted, kept]
    cases find key t.mutations with
    | some value => rfl
    | none => simp [deleted]

theorem WellFormed.sorted_commit (wf : t.WellFormed) : Sorted t.commit := by
  rw [commit, foldl_erase]
  exact Sorted.inserted (wf.db.filter _) t.mutations

theorem WellFormed.commit_put (wf : t.WellFormed) (key : Key) (value : Value) :
    (t.put key value).commit = insert key value t.commit := by
  apply (wf.put key value).sorted_commit.ext (wf.sorted_commit.insert key value)
  intro other
  rw [← (wf.put key value).get_eq, find_insert, ← wf.get_eq, get, get, LevelDbTransaction.put]
  simp only [find_insert]
  by_cases same : key = other
  · subst same
    simp
  · simp [same, Ne.symm same]

theorem WellFormed.commit_delete (wf : t.WellFormed) (key : Key) :
    (t.delete key).commit = erase key t.commit := by
  apply (wf.delete key).sorted_commit.ext (wf.sorted_commit.erase key)
  intro other
  rw [← (wf.delete key).get_eq, find_erase, ← wf.get_eq, get, get, LevelDbTransaction.delete]
  simp only [find_erase]
  by_cases same : key = other
  · subst same
    simp
  · simp [same, Ne.symm same]

/-! ## Where an iterator stands -/

namespace Iterator

variable {it : Iterator Key Value} {passed : Key → Bool} {entry : Key × Value}

/-- The iterators of the rows and of the mutations, behind the keys passed. -/
structure At (t : LevelDbTransaction Key Value) (passed : Key → Bool) (it : Iterator Key Value) :
    Prop where
  sorted : Sorted it.dbIter
  rows : (it.dbIter.filter fun row => !decide (row.1 ∈ t.deletions)) =
    (t.db.filter fun row => !decide (row.1 ∈ t.deletions)).filter fun row => !passed row.1
  first : ∀ row ∈ it.dbIter.head?, row.1 ∉ t.deletions
  mutations : it.mutationsIter = t.mutations.filter fun mutation => !passed mutation.1

theorem filter_skipDeleted (t : LevelDbTransaction Key Value) (rows : List (Key × Value)) :
    ((skipDeleted t rows).filter fun row => !decide (row.1 ∈ t.deletions)) =
      rows.filter fun row => !decide (row.1 ∈ t.deletions) := by
  induction rows with
  | nil => rfl
  | cons row rows ih =>
      rw [skipDeleted, List.dropWhile_cons]
      split
      · rename_i deleted
        rw [List.filter_cons_of_neg (by simpa using deleted)]
        exact ih
      · rfl

theorem first_skipDeleted (t : LevelDbTransaction Key Value) (rows : List (Key × Value)) :
    ∀ row ∈ (skipDeleted t rows).head?, row.1 ∉ t.deletions := by
  induction rows with
  | nil => exact fun _ member => nomatch member
  | cons row rows ih =>
      rw [skipDeleted, List.dropWhile_cons]
      split
      · exact ih
      · rename_i live
        rintro _ ⟨⟩
        simpa using live

/-- Both iterators together find what is committed and not passed. -/
theorem At.find_eq (place : At t passed it) (wf : t.WellFormed) (key : Key) :
    find key (t.commit.filter fun entry => !passed entry.1) =
      match find key it.mutationsIter with
      | some value => some value
      | none => if key ∈ t.deletions then none else find key it.dbIter := by
  have live := find_filter (fun key => !decide (key ∈ t.deletions)) it.dbIter key
  rw [place.rows, find_filter (fun key => !passed key),
    find_filter (fun key => !decide (key ∈ t.deletions))] at live
  rw [find_filter (fun key => !passed key), place.mutations, find_filter (fun key => !passed key),
    ← wf.get_eq, get]
  cases gone : passed key with
  | true =>
      by_cases deleted : key ∈ t.deletions
      · simp [deleted]
      · simpa [gone, deleted] using live
  | false =>
      by_cases deleted : key ∈ t.deletions
      · have absent : find key t.mutations = none :=
          find_eq_none fun entry member same => wf.apart entry member (same ▸ deleted)
        simp [deleted, absent]
      · have shared : find key t.db = find key it.dbIter := by simpa [gone, deleted] using live
        simp [deleted, shared]

theorem At.sorted_mutations (place : At t passed it) (wf : t.WellFormed) :
    Sorted it.mutationsIter := by
  rw [place.mutations]
  exact wf.mutations.filter _

/-- The current entry is the first that is committed and not passed. -/
theorem At.current_eq (place : At t passed it) (wf : t.WellFormed) :
    it.updateCurrent.current = (t.commit.filter fun entry => !passed entry.1).head? := by
  have sorted : Sorted (t.commit.filter fun entry => !passed entry.1) := wf.sorted_commit.filter _
  have found := place.find_eq wf
  have muts := place.sorted_mutations wf
  have rows := place.sorted
  have first := place.first
  obtain ⟨dbIter, mutationsIter, lastVersion, current, isMutation⟩ := it
  simp only at found muts rows first
  cases mutationsIter with
  | nil =>
      cases dbIter with
      | nil => exact (head?_eq_none fun key => by rw [found]; simp).symm
      | cons row more =>
          have live := first row rfl
          refine (sorted.head?_eq_some ?_ fun key present => ?_).symm
          · rw [found]
            simp [live, find_cons]
          · apply rows.first_le
            rw [found] at present
            intro absent
            simp [absent] at present
  | cons mutation later =>
      have here : find mutation.1 (mutation :: later) = some mutation.2 := by
        rw [find_cons, if_pos rfl]
      cases dbIter with
      | nil =>
          refine (sorted.head?_eq_some ?_ fun key present => ?_).symm
          · rw [found, here]
          · apply muts.first_le
            rw [found] at present
            intro absent
            simp [absent] at present
      | cons row more =>
          have live := first row rfl
          have either : ∀ key, find key (t.commit.filter fun entry => !passed entry.1) ≠ none →
              mutation.1 ≤ key ∨ row.1 ≤ key := by
            intro key present
            rw [found] at present
            by_cases absent : find key (mutation :: later) = none
            · right
              apply rows.first_le
              intro nothing
              simp [absent, nothing] at present
            · exact .inl (muts.first_le absent)
          by_cases shadows : mutation.1 ≤ row.1
          · simp only [updateCurrent, if_pos shadows]
            refine (sorted.head?_eq_some ?_ fun key present => ?_).symm
            · rw [found, here]
            · exact (either key present).elim id shadows.trans
          · have ahead := not_le.mp shadows
            simp only [updateCurrent, if_neg shadows]
            refine (sorted.head?_eq_some ?_ fun key present => ?_).symm
            · have absent : find row.1 (mutation :: later) = none := by
                by_contra present
                exact shadows (muts.first_le present)
              rw [found, absent]
              simp [live, find_cons]
            · exact (either key present).elim ahead.le.trans id

theorem At.passed_rows (place : At t passed it) (least : Key) :
    ((t.db.filter fun row => !decide (row.1 ∈ t.deletions)).filter fun row =>
        !(passed row.1 || decide (row.1 ≤ least))) =
      (it.dbIter.filter fun row => !decide (row.1 ∈ t.deletions)).filter fun row =>
        !decide (row.1 ≤ least) := by
  rw [place.rows]
  conv_rhs => rw [List.filter_filter]
  congr 1
  funext row
  simp [Bool.and_comm]

theorem At.passed_mutations (place : At t passed it) (least : Key) :
    (t.mutations.filter fun mutation => !(passed mutation.1 || decide (mutation.1 ≤ least))) =
      it.mutationsIter.filter fun mutation => !decide (mutation.1 ≤ least) := by
  rw [place.mutations]
  conv_rhs => rw [List.filter_filter]
  congr 1
  funext row
  simp [Bool.and_comm]

theorem sorted_skipDeleted {rows : List (Key × Value)} (sorted : Sorted rows) :
    Sorted (skipDeleted t rows) :=
  List.Pairwise.sublist (List.dropWhile_sublist _) sorted

/-- Past its first row, the iterator of the rows is past this key. -/
theorem At.advance_rows {row : Key × Value} {more : List (Key × Value)} (place : At t passed it)
    (here : it.dbIter = row :: more) :
    ((skipDeleted t more).filter fun other => !decide (other.1 ∈ t.deletions)) =
      (t.db.filter fun other => !decide (other.1 ∈ t.deletions)).filter fun other =>
        !(passed other.1 || decide (other.1 ≤ row.1)) := by
  have live := place.first row (by rw [here]; rfl)
  have sorted := place.sorted
  rw [here] at sorted
  rw [filter_skipDeleted, place.passed_rows, here, List.filter_cons_of_pos (by simpa using live),
    Sorted.filter_above_first]
  have kept := sorted.filter fun other => !decide (other.1 ∈ t.deletions)
  rwa [List.filter_cons_of_pos (by simpa using live)] at kept

theorem At.advance (place : At t passed it) (wf : t.WellFormed)
    (current : it.updateCurrent.current = some entry) :
    At t (fun key => passed key || decide (key ≤ entry.1)) (it.updateCurrent.advance t) := by
  have muts := place.sorted_mutations wf
  have sorted := place.sorted
  have rows := place.passed_rows entry.1
  have mutations := place.passed_mutations entry.1
  have past := @At.advance_rows _ _ _ t it passed
  obtain ⟨dbIter, mutationsIter, lastVersion, shown, isMutation⟩ := it
  simp only at muts sorted rows mutations past
  cases mutationsIter with
  | nil =>
      cases dbIter with
      | nil => cases current
      | cons row more =>
          cases current
          exact ⟨sorted_skipDeleted sorted.tail, past place rfl, first_skipDeleted t more,
            mutations.symm⟩
  | cons mutation later =>
      cases dbIter with
      | nil =>
          cases current
          refine ⟨List.Pairwise.nil, rows.symm, (fun _ member => nomatch member), ?_⟩
          rw [mutations, muts.filter_above_first]
          rfl
      | cons row more =>
          by_cases shadows : mutation.1 ≤ row.1
          · simp only [updateCurrent, if_pos shadows, Option.some.injEq] at current
            subst current
            rw [muts.filter_above_first] at mutations
            -- A row that the mutation shadows is passed with it; a later one stays.
            by_cases same : row.1 = mutation.1
            · have both : Iterator.advance t (updateCurrent ⟨row :: more, mutation :: later,
                  lastVersion, shown, isMutation⟩) =
                  ⟨skipDeleted t more, later, lastVersion, some mutation, true⟩ := by
                simp [updateCurrent, Iterator.advance, same, advanceLDB]
              rw [both]
              exact ⟨sorted_skipDeleted sorted.tail, same ▸ past place rfl,
                first_skipDeleted t more, mutations.symm⟩
            · have one : Iterator.advance t (updateCurrent ⟨row :: more, mutation :: later,
                  lastVersion, shown, isMutation⟩) =
                  ⟨row :: more, later, lastVersion, some mutation, true⟩ := by
                simp [updateCurrent, shadows, Iterator.advance, same]
              rw [one]
              have ahead := lt_of_le_of_ne shadows (Ne.symm same)
              refine ⟨sorted, ?_, place.first, mutations.symm⟩
              rw [rows]
              refine (filter_above fun other member => ?_).symm
              rcases List.mem_cons.mp (List.mem_of_mem_filter member) with rfl | member
              · exact ahead
              · exact ahead.trans ((List.pairwise_cons.mp sorted).1 other member)
          · simp only [updateCurrent, if_neg shadows, Option.some.injEq] at current
            subst current
            have one : Iterator.advance t (updateCurrent ⟨row :: more, mutation :: later,
                lastVersion, shown, isMutation⟩) =
                ⟨skipDeleted t more, mutation :: later, lastVersion, some row, false⟩ := by
              simp [updateCurrent, shadows, Iterator.advance, advanceLDB]
            rw [one]
            refine ⟨sorted_skipDeleted sorted.tail, past place rfl, first_skipDeleted t more, ?_⟩
            rw [mutations]
            refine (filter_above fun other member => ?_).symm
            rcases List.mem_cons.mp member with rfl | member
            · exact not_le.mp shadows
            · exact (not_le.mp shadows).trans ((List.pairwise_cons.mp muts).1 other member)

/-- The iterators before `Seek` looks at them. -/
def sought (t : LevelDbTransaction Key Value) (key : Key) (it : Iterator Key Value) :
    Iterator Key Value :=
  { it with
    dbIter := skipDeleted t (lowerBound key t.db)
    mutationsIter := lowerBound key t.mutations
    lastVersion := t.version }

theorem at_sought (wf : t.WellFormed) (key : Key) (it : Iterator Key Value) :
    At t (fun other => decide (other < key)) (sought t key it) where
  sorted := sorted_skipDeleted (wf.db.lowerBound key)
  rows := by
    rw [sought, filter_skipDeleted, wf.db.lowerBound_eq_filter, List.filter_comm]
  first := first_skipDeleted t _
  mutations := wf.mutations.lowerBound_eq_filter

/-! ## What an iterator shows -/

/-- The first row from a key on. -/
def firstFrom (rows : List (Key × Value)) (key : Key) : Option (Key × Value) :=
  (rows.filter fun entry => !decide (entry.1 < key)).head?

/-- The first row after a key. -/
def firstAfter (rows : List (Key × Value)) (key : Key) : Option (Key × Value) :=
  (rows.filter fun entry => !decide (entry.1 ≤ key)).head?

theorem seek_spec (wf : t.WellFormed) (key : Key) (it : Iterator Key Value) :
    (it.seek t key).current = firstFrom t.commit key :=
  (at_sought wf key it).current_eq wf

theorem firstAfter_eq (rows : List (Key × Value)) (key : Key) :
    firstAfter rows key =
      ((rows.filter fun entry => !decide (entry.1 < key)).filter fun entry =>
        !decide (entry.1 ≤ key)).head? := by
  rw [firstAfter, List.filter_filter]
  congr 2
  funext entry
  by_cases after : entry.1 ≤ key
  · simp [after]
  · simp [after, (not_le.mp after).le]

theorem firstAfter_none {rows : List (Key × Value)} {key : Key}
    (nothing : firstFrom rows key = none) : firstAfter rows key = none := by
  rw [firstAfter_eq, List.head?_eq_none_iff.mp nothing]
  rfl

theorem firstAfter_beyond {rows : List (Key × Value)} {key : Key} (sorted : Sorted rows)
    (found : firstFrom rows key = some entry) (beyond : key < entry.1) :
    firstAfter rows key = some entry := by
  have kept := sorted.filter fun entry => !decide (entry.1 < key)
  rw [firstAfter_eq]
  rw [firstFrom] at found
  cases onward : rows.filter fun entry => !decide (entry.1 < key) with
  | nil =>
      rw [onward] at found
      cases found
  | cons first more =>
      rw [onward] at found kept
      cases found
      rw [filter_above]
      · rfl
      · intro other member
        rcases List.mem_cons.mp member with rfl | member
        · exact beyond
        · exact beyond.trans ((List.pairwise_cons.mp kept).1 other member)

theorem firstFrom_here {rows : List (Key × Value)} {key : Key}
    (found : firstFrom rows key = some entry) (here : ¬ key < entry.1) : entry.1 = key := by
  have member := (List.mem_filter.mp (List.mem_of_head? found)).2
  exact le_antisymm (not_lt.mp here) (by simpa using member)

/-- The keys passed are below the others. -/
def Lower (passed : Key → Bool) : Prop :=
  ∀ key other, passed key = true → passed other = false → key < other

theorem lower_before (key : Key) : Lower fun other => decide (other < key) := by
  intro other later before behind
  simp only [decide_eq_true_eq, decide_eq_false_iff_not] at before behind
  exact before.trans_le (not_lt.mp behind)

theorem lower_upTo (key : Key) : Lower fun other => decide (other ≤ key) := by
  intro other later before behind
  simp only [decide_eq_true_eq, decide_eq_false_iff_not] at before behind
  exact before.trans_lt (not_le.mp behind)

/-- An iterator that the transaction has not changed under stands where it shows; one that it
    has changed under will look again. -/
structure Standing (t : LevelDbTransaction Key Value) (it : Iterator Key Value) : Prop where
  version : it.lastVersion ≤ t.version
  place : it.current.isSome = true → it.lastVersion = t.version →
    ∃ passed before, At t passed before ∧ Lower passed ∧ it = before.updateCurrent

theorem lastVersion_updateCurrent (it : Iterator Key Value) :
    it.updateCurrent.lastVersion = it.lastVersion := by
  unfold updateCurrent
  split
  · rfl
  · rfl
  · rfl
  · split
    · rfl
    · rfl

theorem lastVersion_advance (it : Iterator Key Value) :
    (it.advance t).lastVersion = it.lastVersion := by
  unfold Iterator.advance
  split
  · split
    · rfl
    · rfl
  · rfl

theorem seek_standing (wf : t.WellFormed) (key : Key) (it : Iterator Key Value) :
    Standing t (it.seek t key) where
  version := (lastVersion_updateCurrent (sought t key it)).le
  place _ _ := ⟨_, sought t key it, at_sought wf key it, lower_before key, rfl⟩

theorem At.advance_spec (place : At t passed it) (wf : t.WellFormed) (lower : Lower passed)
    (version : it.lastVersion = t.version) (current : it.updateCurrent.current = some entry) :
    (it.updateCurrent.advance t).updateCurrent.current = firstAfter t.commit entry.1 ∧
      Standing t (it.updateCurrent.advance t).updateCurrent := by
  have onward := place.advance wf current
  have unpassed : passed entry.1 = false := by
    have shown := place.current_eq wf
    rw [current] at shown
    simpa using (List.mem_filter.mp (List.mem_of_head? shown.symm)).2
  have upTo : (fun key => passed key || decide (key ≤ entry.1)) =
      fun key => decide (key ≤ entry.1) := by
    funext key
    cases gone : passed key with
    | true => simp [(lower key entry.1 gone unpassed).le]
    | false => rfl
  rw [upTo] at onward
  refine ⟨onward.current_eq wf, ?_, fun _ _ => ⟨_, _, onward, lower_upTo entry.1, rfl⟩⟩
  rw [lastVersion_updateCurrent, lastVersion_advance, lastVersion_updateCurrent, version]

theorem next_spec (wf : t.WellFormed) (stands : Standing t it) :
    (it.next t).current = (it.current.bind fun entry => firstAfter t.commit entry.1) ∧
      Standing t (it.next t) := by
  cases current : it.current with
  | none =>
      have stays : it.next t = it := by simp [next, syncToTransaction, current]
      rw [stays, current]
      exact ⟨rfl, stands⟩
  | some entry =>
      by_cases behind : it.lastVersion < t.version
      · have sought_spec := seek_spec wf entry.1 it
        cases found : (it.seek t entry.1).current with
        | none =>
            have ended : it.next t = it.seek t entry.1 := by
              simp [next, syncToTransaction, current, behind, found]
            rw [found] at sought_spec
            rw [ended, found]
            exact ⟨(firstAfter_none sought_spec.symm).symm, seek_standing wf entry.1 it⟩
        | some other =>
            rw [found] at sought_spec
            -- The row shown is gone, and seeking it went on; or it is there, and is left now.
            by_cases beyond : entry.1 < other.1
            · have moved : it.next t = it.seek t entry.1 := by
                simp [next, syncToTransaction, current, behind, found, beyond]
              rw [moved, found]
              exact ⟨(firstAfter_beyond wf.sorted_commit sought_spec.symm beyond).symm,
                seek_standing wf entry.1 it⟩
            · have again : it.next t = ((it.seek t entry.1).advance t).updateCurrent := by
                simp [next, syncToTransaction, current, behind, found, beyond]
              rw [again]
              have same := firstFrom_here sought_spec.symm beyond
              have step :=
                (at_sought wf entry.1 it).advance_spec wf (lower_before entry.1) rfl found
              rw [same] at step
              exact step
      · have version := le_antisymm stands.version (not_lt.mp behind)
        obtain ⟨passed, before, place, lower, same⟩ := stands.place (by rw [current]; rfl) version
        have synced : it.next t = (it.advance t).updateCurrent := by
          simp [next, syncToTransaction, current, behind]
        rw [synced, same]
        rw [same] at current version
        exact place.advance_spec wf lower (lastVersion_updateCurrent before ▸ version) current

/-- The loop over an iterator while it is valid, for a number of steps. -/
def loop (t : LevelDbTransaction Key Value) : Nat → Iterator Key Value → List (Key × Value)
  | 0, _ => []
  | steps + 1, it =>
      match it.current with
      | none => []
      | some entry => entry :: loop t steps (it.next t)

theorem firstAfter_around {before after : List (Key × Value)}
    (sorted : Sorted (before ++ entry :: after)) :
    firstAfter (before ++ entry :: after) entry.1 = after.head? := by
  obtain ⟨_, later, across⟩ := List.pairwise_append.mp sorted
  have passed : (before.filter fun other => !decide (other.1 ≤ entry.1)) = [] := by
    rw [List.filter_eq_nil_iff]
    intro other member
    simpa using (across other member entry List.mem_cons_self).le
  rw [firstAfter, List.filter_append, passed, List.nil_append, Sorted.filter_above_first later]

theorem loop_spec (wf : t.WellFormed) {before rest : List (Key × Value)} {steps : Nat}
    (parts : t.commit = before ++ rest) (stands : Standing t it) (current : it.current = rest.head?)
    (enough : rest.length ≤ steps) : loop t steps it = rest := by
  induction rest generalizing before it steps with
  | nil =>
      cases steps with
      | zero => rfl
      | succ steps =>
          rw [List.head?_nil] at current
          simp only [loop, current]
  | cons entry rest ih =>
      cases steps with
      | zero => cases enough
      | succ steps =>
          rw [List.head?_cons] at current
          obtain ⟨shown, standing⟩ := next_spec wf stands
          have sorted := wf.sorted_commit
          rw [parts] at sorted
          rw [current, Option.bind_some, parts, firstAfter_around sorted] at shown
          have onward : t.commit = (before ++ [entry]) ++ rest := by
            rw [parts, List.append_assoc]
            rfl
          simp only [loop, current, ih onward standing shown (Nat.le_of_succ_le_succ enough)]

/-- A loop from a key on goes through the rows from this key on. -/
theorem loop_seek (wf : t.WellFormed) (key : Key) (it : Iterator Key Value) :
    loop t t.commit.length (it.seek t key) = lowerBound key t.commit := by
  have parts : t.commit =
      (t.commit.takeWhile fun entry => entry.1 < key) ++ lowerBound key t.commit :=
    List.takeWhile_append_dropWhile.symm
  apply loop_spec wf parts (seek_standing wf key it)
  · rw [seek_spec wf, firstFrom, wf.sorted_commit.lowerBound_eq_filter]
  · exact (List.dropWhile_sublist _).length_le

end Iterator

/-! ## Transactions one after another -/

/-- `NewIterator`. -/
def newIterator (t : LevelDbTransaction Key Value) : Iterator Key Value :=
  ⟨[], t.mutations, t.version, none, false⟩

inductive Operation (Key Value : Type) where
  | put (key : Key) (value : Value)
  | delete (key : Key)
  | newIterator
  | seek (key : Key)
  | next
  /-- The transaction is committed, and another one begins. -/
  | commit

structure State (Key Value : Type) where
  transaction : LevelDbTransaction Key Value
  iterator : Iterator Key Value

def begun (db : List (Key × Value)) : State Key Value := ⟨opened db, newIterator (opened db)⟩

def step (s : State Key Value) : Operation Key Value → State Key Value
  | .put key value => { s with transaction := s.transaction.put key value }
  | .delete key => { s with transaction := s.transaction.delete key }
  | .newIterator => { s with iterator := s.transaction.newIterator }
  | .seek key => { s with iterator := s.iterator.seek s.transaction key }
  | .next => { s with iterator := s.iterator.next s.transaction }
  | .commit => begun s.transaction.commit

/-- Rows that change at once, and where one stands in them. -/
structure Table (Key Value : Type) where
  rows : List (Key × Value)
  current : Option (Key × Value)

def Table.step (s : Table Key Value) : Operation Key Value → Table Key Value
  | .put key value => { s with rows := insert key value s.rows }
  | .delete key => { s with rows := erase key s.rows }
  | .newIterator => { s with current := none }
  | .seek key => { s with current := Iterator.firstFrom s.rows key }
  | .next => { s with current := s.current.bind fun entry => Iterator.firstAfter s.rows entry.1 }
  | .commit => { s with current := none }

structure Shows (s : State Key Value) (table : Table Key Value) : Prop where
  wellFormed : s.transaction.WellFormed
  standing : s.iterator.Standing s.transaction
  rows : s.transaction.commit = table.rows
  current : s.iterator.current = table.current

theorem shows_begun {db : List (Key × Value)} (sorted : Sorted db) :
    Shows (begun db) ⟨db, none⟩ where
  wellFormed := wellFormed_opened sorted
  standing := ⟨Nat.le_refl _, fun valid => nomatch valid⟩
  rows := rfl
  current := rfl

theorem Shows.step {s : State Key Value} {table : Table Key Value} (shows_ : Shows s table)
    (op : Operation Key Value) : Shows (step s op) (table.step op) := by
  obtain ⟨wf, standing, rows, current⟩ := shows_
  cases op with
  | put key value =>
      refine ⟨wf.put key value, ⟨Nat.le_succ_of_le standing.version, ?_⟩, ?_, current⟩
      · exact fun _ same => absurd (same ▸ standing.version) (Nat.not_succ_le_self _)
      · exact (wf.commit_put key value).trans (congrArg _ rows)
  | delete key =>
      refine ⟨wf.delete key, ⟨Nat.le_succ_of_le standing.version, ?_⟩, ?_, current⟩
      · exact fun _ same => absurd (same ▸ standing.version) (Nat.not_succ_le_self _)
      · exact (wf.commit_delete key).trans (congrArg _ rows)
  | newIterator =>
      exact ⟨wf, ⟨Nat.le_refl _, fun valid => nomatch valid⟩, rows, rfl⟩
  | seek key =>
      refine ⟨wf, Iterator.seek_standing wf key _, rows, ?_⟩
      exact (Iterator.seek_spec wf key _).trans (by rw [rows]; rfl)
  | next =>
      obtain ⟨shown, stands⟩ := Iterator.next_spec wf standing
      refine ⟨wf, stands, rows, shown.trans ?_⟩
      rw [current, rows]
      rfl
  | commit =>
      have again := shows_begun wf.sorted_commit
      exact ⟨again.wellFormed, again.standing, again.rows.trans rows, rfl⟩

/-- Over any number of transactions, every read shows the rows as if each change had been made
    at once: an iterator goes on to the next row there is then, whatever was put or deleted
    since it last moved. -/
theorem transactions_transparent (ops : List (Operation Key Value)) :
    let s := ops.foldl step (begun [])
    let table := ops.foldl Table.step ⟨[], none⟩
    s.transaction.commit = table.rows ∧ s.iterator.current = table.current ∧
      ∀ key, s.transaction.get key = find key table.rows := by
  have run : ∀ (s : State Key Value) (table : Table Key Value), Shows s table →
      Shows (ops.foldl step s) (ops.foldl Table.step table) := by
    induction ops with
    | nil => exact fun _ _ shows_ => shows_
    | cons op ops ih => exact fun s table shows_ => ih _ _ (shows_.step op)
  obtain ⟨wf, _, rows, current⟩ := run _ _ (shows_begun List.Pairwise.nil)
  exact ⟨rows, current, fun key => rows ▸ wf.get_eq key⟩

end LevelDbTransaction

end DogFoodTracker.Core
