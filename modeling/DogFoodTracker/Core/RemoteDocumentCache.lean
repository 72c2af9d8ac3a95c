import DogFoodTracker.Core.CollectionQuery
import DogFoodTracker.Core.LevelDbKey
import DogFoodTracker.Core.LevelDbTransaction
import DogFoodTracker.Storage.SortedMap

/-! # The cache of the backend's documents

The store keeps the rows of all tables in the order of their keys. A collection is read by
going through the rows from the first that its path allows, up to the first that is none of
its documents though it is as long as one; the cache is, for every reader, a map of documents.
-/

namespace DogFoodTracker.Core

open SortedMap

def segmentBytes (segment : String) : Bytes := segment.toByteArray.data.toList

/-- A document's path as it is written to a key. -/
def segments (path : List String) : List Bytes := path.map segmentBytes

theorem segmentBytes_injective : Function.Injective segmentBytes := by
  intro segment segment' same
  exact String.toByteArray_inj.mp (ByteArray.ext (Array.toList_inj.mp same))

theorem segments_injective : Function.Injective segments :=
  List.map_injective_iff.mpr segmentBytes_injective

theorem segments_prefix (path path' : List String) :
    segments path <+: segments path' ↔ path <+: path' :=
  List.prefix_map_iff_of_injective segmentBytes_injective

namespace LevelDbRemoteDocumentCache

variable {Contents : Type} (decodeMaybeDocument : Contents → MaybeDocument)

/-- `Add`, as far as the table of documents goes. -/
def add (key : DocumentKey) (contents : Contents) (rows : List (Bytes × Contents)) :
    List (Bytes × Contents) :=
  insert (LevelDbRemoteDocumentKey.key (segments key)) contents rows

def remove (key : DocumentKey) (rows : List (Bytes × Contents)) : List (Bytes × Contents) :=
  erase (LevelDbRemoteDocumentKey.key (segments key)) rows

def get (rows : List (Bytes × Contents)) (key : DocumentKey) : Option MaybeDocument :=
  (find (LevelDbRemoteDocumentKey.key (segments key)) rows).map decodeMaybeDocument

/-- `GetAll`, for one of its keys: the first row from the key on may be another's. -/
def getAll (rows : List (Bytes × Contents)) (key : DocumentKey) : Option MaybeDocument :=
  match lowerBound (LevelDbRemoteDocumentKey.key (segments key)) rows with
  | [] => none
  | (row, contents) :: _ =>
      match LevelDbRemoteDocumentKey.decode row with
      | none => none
      | some path => if path = segments key then some (decodeMaybeDocument contents) else none

/-- The loop of `GetMatching` over the rows from its start key on. -/
def scan (queryPath : List Bytes) : List (Bytes × Contents) → List (List Bytes × Contents)
  | [] => []
  | (row, contents) :: rows =>
      match LevelDbRemoteDocumentKey.decode row with
      | none => []
      | some path =>
          -- A longer path is one of a collection below a document.
          if path.length ≠ queryPath.length + 1 then scan queryPath rows
          else if !queryPath.isPrefixOf path then []
          else (path, contents) :: scan queryPath rows

/-- What a row found adds to the results. -/
def addResult (results : List Bytes → Option MaybeDocument) (row : List Bytes × Contents) :
    List Bytes → Option MaybeDocument :=
  if (decodeMaybeDocument row.2).isDocument then
    Function.update results row.1 (some (decodeMaybeDocument row.2))
  else results

def getMatching (rows : List (Bytes × Contents)) (queryPath : List String) :
    List Bytes → Option MaybeDocument :=
  (scan (segments queryPath)
    (lowerBound (LevelDbRemoteDocumentKey.keyPrefix (segments queryPath)) rows)).foldl
    (addResult decodeMaybeDocument) fun _ => none

/-! ## Rows -/

/-- A key of another table. -/
structure OtherKey where
  tableName : Bytes
  more : Bytes
  other : tableName ≠ LevelDbRemoteDocumentKey.kRemoteDocumentsTable

def OtherKey.key (k : OtherKey) : Bytes :=
  Writer.writeTableName [] k.tableName ++ k.more

/-- `DocumentKey::IsDocumentKey`, of a path that is not empty. -/
def IsDocument (key : DocumentKey) : Prop := key ≠ [] ∧ key.length % 2 = 0

inductive Write (Contents : Type) where
  | add (key : DocumentKey) (document : IsDocument key) (contents : Contents)
  | remove (key : DocumentKey)
  | put (key : OtherKey) (contents : Contents)
  | delete (key : OtherKey)

def step (rows : List (Bytes × Contents)) : Write Contents → List (Bytes × Contents)
  | .add key _ contents => add key contents rows
  | .remove key => remove key rows
  | .put key contents => insert key.key contents rows
  | .delete key => erase key.key rows

def run (writes : List (Write Contents)) : List (Bytes × Contents) :=
  writes.foldl step []

/-- The map that the rows of the documents stand for. -/
def Write.effect (documents : DocumentKey → Option MaybeDocument) :
    Write Contents → DocumentKey → Option MaybeDocument
  | .add key _ contents => Function.update documents key (some (decodeMaybeDocument contents))
  | .remove key => Function.update documents key none
  | .put .. | .delete .. => documents

def documents (writes : List (Write Contents)) : DocumentKey → Option MaybeDocument :=
  writes.foldl (Write.effect decodeMaybeDocument) fun _ => none

variable {rows : List (Bytes × Contents)} {row : Bytes}

/-- A row is one of a document, or in another table. -/
def Written (row : Bytes) : Prop :=
  (∃ key, IsDocument key ∧ row = LevelDbRemoteDocumentKey.key (segments key)) ∨
    ∃ key : OtherKey, row = key.key

structure Kept (rows : List (Bytes × Contents)) : Prop where
  sorted : Sorted rows
  written : ∀ entry ∈ rows, Written entry.1

theorem Kept.insert (kept : Kept rows) (written : Written row) (contents : Contents) :
    Kept (insert row contents rows) where
  sorted := kept.sorted.insert row contents
  written := by
    intro entry member
    rcases mem_insert member with rfl | earlier
    · exact written
    · exact kept.written entry earlier

theorem Kept.erase (kept : Kept rows) (row : Bytes) : Kept (erase row rows) where
  sorted := kept.sorted.erase row
  written entry member := kept.written entry (List.mem_of_mem_filter member)

theorem Kept.step (kept : Kept rows) (write : Write Contents) : Kept (step rows write) := by
  cases write with
  | add key document contents => exact kept.insert (.inl ⟨key, document, rfl⟩) contents
  | remove key => exact kept.erase _
  | put key contents => exact kept.insert (.inr ⟨key, rfl⟩) contents
  | delete key => exact kept.erase _

theorem run_kept (writes : List (Write Contents)) : Kept (run writes) := by
  have kept : ∀ rows : List (Bytes × Contents), Kept rows → Kept (writes.foldl step rows) := by
    induction writes with
    | nil => exact fun _ kept => kept
    | cons write writes ih => exact fun rows kept => ih _ (kept.step write)
  exact kept [] ⟨List.Pairwise.nil, fun _ member => nomatch member⟩

/-! ## Reading one document -/

theorem key_injective : Function.Injective fun key => LevelDbRemoteDocumentKey.key (segments key) :=
  LevelDbRemoteDocumentKey.key_injective.comp segments_injective

theorem decode_document {key : DocumentKey} (document : IsDocument key) :
    LevelDbRemoteDocumentKey.decode (LevelDbRemoteDocumentKey.key (segments key)) =
      some (segments key) := by
  apply LevelDbRemoteDocumentKey.decode_key
  · exact fun empty => document.1 (List.map_eq_nil_iff.mp empty)
  · simpa [Reader.isDocumentKey, segments] using document.2

theorem other_ne (k : OtherKey) (path : List Bytes) : LevelDbRemoteDocumentKey.key path ≠ k.key := by
  rw [LevelDbRemoteDocumentKey.key_eq, OtherKey.key]
  intro same
  rcases lt_or_gt_of_ne k.other with below | above
  · exact ((Writer.table_lt _ _ k.more _).mpr (.inl below)).ne same.symm
  · exact ((Writer.table_lt _ _ _ k.more).mpr (.inl above)).ne same

theorem get_other {key : DocumentKey} {contents : Contents}
    (other : row ≠ LevelDbRemoteDocumentKey.key (segments key)) :
    get decodeMaybeDocument ((row, contents) :: rows) key = get decodeMaybeDocument rows key := by
  rw [get, find_cons, if_neg other, get]

theorem get_none {key : DocumentKey}
    (apart : ∀ entry ∈ rows, entry.1 ≠ LevelDbRemoteDocumentKey.key (segments key)) :
    get decodeMaybeDocument rows key = none := by
  rw [get, find_eq_none apart]
  rfl

theorem get_step (rows : List (Bytes × Contents)) (write : Write Contents) :
    get decodeMaybeDocument (step rows write) =
      write.effect decodeMaybeDocument (get decodeMaybeDocument rows) := by
  funext key
  cases write with
  | add key' document contents =>
      rw [step, add, get, find_insert, Write.effect, Function.update_apply]
      by_cases same : key = key'
      · subst same
        rw [if_pos rfl, if_pos rfl]
        rfl
      · rw [if_neg same, if_neg fun shared => same (key_injective shared).symm]
        rfl
  | remove key' =>
      rw [step, remove, get, find_erase, Write.effect, Function.update_apply]
      by_cases same : key = key'
      · subst same
        rw [if_pos rfl, if_pos rfl]
        rfl
      · rw [if_neg same, if_neg fun shared => same (key_injective shared).symm]
        rfl
  | put key' contents =>
      rw [step, get, find_insert_other (other_ne key' _).symm]
      rfl
  | delete key' =>
      rw [step, get, find_erase_other (other_ne key' _).symm]
      rfl

/-- One document after another is read as the map has it. -/
theorem get_run (writes : List (Write Contents)) :
    get decodeMaybeDocument (run writes) = documents decodeMaybeDocument writes := by
  have runs : ∀ rows, get decodeMaybeDocument (writes.foldl step rows) =
      writes.foldl (Write.effect decodeMaybeDocument) (get decodeMaybeDocument rows) := by
    induction writes with
    | nil => exact fun _ => rfl
    | cons write writes ih =>
        intro rows
        rw [List.foldl_cons, List.foldl_cons, ih, get_step]
  exact runs []

theorem Kept.getAll_eq_get (kept : Kept rows) (key : DocumentKey) :
    getAll decodeMaybeDocument rows key = get decodeMaybeDocument rows key := by
  rw [getAll, get, find_lowerBound kept.sorted]
  have written : ∀ entry ∈ lowerBound (LevelDbRemoteDocumentKey.key (segments key)) rows,
      Written entry.1 :=
    fun entry member => kept.written entry ((List.dropWhile_sublist _).subset member)
  cases onward : lowerBound (LevelDbRemoteDocumentKey.key (segments key)) rows with
  | nil => rfl
  | cons entry rest =>
      rw [onward] at written
      obtain ⟨row, contents⟩ := entry
      rcases written _ List.mem_cons_self with ⟨key', document, rfl⟩ | ⟨other, rfl⟩
      · by_cases same : key' = key
        · subst same
          simp [decode_document document, Option.filter_some]
        · have apart : LevelDbRemoteDocumentKey.key (segments key') ≠
              LevelDbRemoteDocumentKey.key (segments key) :=
            fun shared => same (key_injective shared)
          have differ : segments key' ≠ segments key :=
            fun shared => same (segments_injective shared)
          simp [decode_document document, apart, differ, Option.filter_some]
      · have missed : LevelDbRemoteDocumentKey.decode other.key = none :=
          LevelDbRemoteDocumentKey.decode_other other.other other.more
        simp [missed, (other_ne other (segments key)).symm, Option.filter_some]

/-- In a transaction the cache reads the rows that committing would leave: by a key, at the place
    sought, and in the loop from there on. -/
theorem reads_committed {t : LevelDbTransaction Bytes Contents} (wf : t.WellFormed)
    (it : LevelDbTransaction.Iterator Bytes Contents) (key : DocumentKey) (start : Bytes) :
    (t.get (LevelDbRemoteDocumentKey.key (segments key))).map decodeMaybeDocument =
        get decodeMaybeDocument t.commit key ∧
      (it.seek t start).current = (lowerBound start t.commit).head? ∧
      LevelDbTransaction.Iterator.loop t t.commit.length (it.seek t start) =
        lowerBound start t.commit := by
  refine ⟨?_, ?_, LevelDbTransaction.Iterator.loop_seek wf start it⟩
  · rw [wf.get_eq, get]
  · rw [LevelDbTransaction.Iterator.seek_spec wf, LevelDbTransaction.Iterator.firstFrom,
      wf.sorted_commit.lowerBound_eq_filter]

/-! ## Reading a collection -/

theorem mem_scan {queryPath path : List Bytes} {contents : Contents}
    (member : (path, contents) ∈ scan queryPath rows) :
    path.length = queryPath.length + 1 ∧ queryPath <+: path := by
  fun_induction scan queryPath rows with
  | case1 => cases member
  | case2 => cases member
  | case3 row contents rows path decoded long ih => exact ih member
  | case4 => cases member
  | case5 row contents rows path decoded child within ih =>
      rcases List.mem_cons.mp member with same | later
      · cases same
        simp at child within
        exact ⟨child, within⟩
      · exact ih later

theorem foldl_addResult_other {found : List (List Bytes × Contents)} {path : List Bytes}
    (results : List Bytes → Option MaybeDocument) (apart : ∀ entry ∈ found, entry.1 ≠ path) :
    found.foldl (addResult decodeMaybeDocument) results path = results path := by
  induction found generalizing results with
  | nil => rfl
  | cons entry rest ih =>
      rw [List.foldl_cons, ih _ fun later member => apart later (List.mem_cons_of_mem _ member),
        addResult]
      split
      · exact Function.update_of_ne (apart entry List.mem_cons_self).symm _ _
      · rfl

theorem isImmediateParentOf_iff {queryPath : List String} {key : DocumentKey} :
    isImmediateParentOf queryPath key = true ↔
      (segments key).length = (segments queryPath).length + 1 ∧
        segments queryPath <+: segments key := by
  rw [isImmediateParentOf, segments_prefix, Bool.and_eq_true, decide_eq_true_iff,
    List.isPrefixOf_iff_prefix, segments, segments, List.length_map, List.length_map]
  exact and_congr_left' eq_comm

/-- Where the loop ends, nothing of the collection is left. -/
theorem Kept.scan_inside (kept : Kept rows) {queryPath : List String} {key : DocumentKey}
    (inside : isImmediateParentOf queryPath key = true)
    (reached : ∀ entry ∈ rows,
      ¬ entry.1 < LevelDbRemoteDocumentKey.keyPrefix (segments queryPath))
    (results : List Bytes → Option MaybeDocument) :
    (scan (segments queryPath) rows).foldl (addResult decodeMaybeDocument) results (segments key) =
      ((get decodeMaybeDocument rows key).filter MaybeDocument.isDocument).or
        (results (segments key)) := by
  obtain ⟨child, within⟩ := isImmediateParentOf_iff.mp inside
  induction rows generalizing results with
  | nil => rfl
  | cons entry rest ih =>
      obtain ⟨row, contents⟩ := entry
      have later := (List.pairwise_cons.mp kept.sorted).1
      have onward : Kept rest :=
        ⟨kept.sorted.tail, fun entry member => kept.written entry (List.mem_cons_of_mem _ member)⟩
      have continues := ih onward fun entry member => reached entry (List.mem_cons_of_mem _ member)
      have here := reached _ List.mem_cons_self
      -- Where the loop ends at this row, the document is not in it and not in a later one.
      have ended (apart : row ≠ LevelDbRemoteDocumentKey.key (segments key))
          (beyond : ¬ row < LevelDbRemoteDocumentKey.key (segments key)) :
          get decodeMaybeDocument ((row, contents) :: rest) key = none := by
        apply get_none
        intro entry member
        rcases List.mem_cons.mp member with rfl | member
        · exact apart
        · exact fun same => beyond (same ▸ later entry member)
      rcases kept.written _ List.mem_cons_self with ⟨key', document, same⟩ | ⟨other, same⟩
      · change row = _ at same
        subst same
        rw [LevelDbRemoteDocumentKey.key_lt_keyPrefix] at here
        simp only [scan, decode_document document]
        by_cases long : (segments key').length = (segments queryPath).length + 1
        · rw [if_neg (not_not_intro long)]
          by_cases prefixed : segments queryPath <+: segments key'
          · rw [if_neg (by simpa using prefixed), List.foldl_cons, continues]
            by_cases same : key' = key
            · subst same
              have once : get decodeMaybeDocument rest key' = none :=
                get_none _ fun entry member => (later entry member).ne'
              rw [once, get, find_cons, if_pos rfl]
              simp only [addResult]
              cases isDocument : (decodeMaybeDocument contents).isDocument with
              | false => simp [isDocument, Option.filter_some]
              | true => simp [isDocument, Option.filter_some]
            · rw [get_other _ fun shared => same (key_injective shared), addResult]
              split
              · rw [Function.update_of_ne fun shared => same (segments_injective shared).symm]
              · rfl
          · have beside : (segments queryPath).isPrefixOf (segments key') = false :=
              Bool.eq_false_iff.mpr (mt List.isPrefixOf_iff_prefix.mp prefixed)
            rw [beside, Bool.not_false, if_pos rfl, ended]
            · rfl
            · exact fun same => prefixed (key_injective same ▸ within)
            · intro before
              rw [LevelDbRemoteDocumentKey.key_lt_key] at before
              exact prefixed (prefix_of_between here before within)
        · have apart : LevelDbRemoteDocumentKey.key (segments key') ≠
              LevelDbRemoteDocumentKey.key (segments key) :=
            fun same => long (key_injective same ▸ child)
          rw [if_pos long, continues, get_other _ apart]
      · change row = _ at same
        subst same
        have missed : LevelDbRemoteDocumentKey.decode other.key = none :=
          LevelDbRemoteDocumentKey.decode_other other.other other.more
        simp only [scan, missed]
        rw [ended (other_ne other _).symm]
        · rfl
        · -- Tables lie apart: a key above the start of this one is above all its documents.
          intro before
          rw [LevelDbRemoteDocumentKey.key_eq, OtherKey.key, Writer.table_lt] at before
          rw [LevelDbRemoteDocumentKey.keyPrefix_eq, OtherKey.key, Writer.table_lt] at here
          rcases before with below | ⟨shared, _⟩
          · exact here (.inl below)
          · exact other.other shared

theorem Kept.lowerBound (kept : Kept rows) (row : Bytes) : Kept (lowerBound row rows) where
  sorted := kept.sorted.lowerBound row
  written entry member := kept.written entry ((List.dropWhile_sublist _).subset member)

theorem Kept.getMatching_inside (kept : Kept rows) {queryPath : List String} {key : DocumentKey}
    (inside : isImmediateParentOf queryPath key = true) :
    getMatching decodeMaybeDocument rows queryPath (segments key) =
      (get decodeMaybeDocument rows key).filter MaybeDocument.isDocument := by
  have reached : LevelDbRemoteDocumentKey.keyPrefix (segments queryPath) ≤
      LevelDbRemoteDocumentKey.key (segments key) := by
    rw [← not_lt, LevelDbRemoteDocumentKey.key_lt_keyPrefix]
    exact not_lt_of_prefix (isImmediateParentOf_iff.mp inside).2
  rw [getMatching, (kept.lowerBound _).scan_inside decodeMaybeDocument inside, Option.or_none,
    get, find_lowerBound_of_le reached, get]
  exact fun entry member => not_lt.mpr (kept.sorted.lowerBound_reached entry member)

theorem getMatching_outside {queryPath : List String} {key : DocumentKey}
    (outside : isImmediateParentOf queryPath key = false) :
    getMatching decodeMaybeDocument rows queryPath (segments key) = none := by
  rw [getMatching]
  apply foldl_addResult_other
  intro entry member same
  obtain ⟨child, within⟩ := mem_scan member
  rw [same] at child within
  rw [isImmediateParentOf_iff.mpr ⟨child, within⟩] at outside
  cases outside

/-- However the rows came about, every read of the cache is one of the map they stand for: of a
    document by its own key, of many in one go, and of a collection. -/
theorem cache_refined (writes : List (Write Contents)) (s : LocalStore) (q : CollectionQuery)
    (key : DocumentKey) :
    let store := { s with remoteDocuments := documents decodeMaybeDocument writes }
    get decodeMaybeDocument (run writes) key = store.remoteDocuments key ∧
      getAll decodeMaybeDocument (run writes) key = store.remoteDocuments key ∧
      getMatching decodeMaybeDocument (run writes) q.path (segments key) =
        store.getMatching q key := by
  intro store
  have kept := run_kept writes
  have same : get decodeMaybeDocument (run writes) key = store.remoteDocuments key :=
    congrFun (get_run decodeMaybeDocument writes) key
  refine ⟨same, ?_, ?_⟩
  · rw [kept.getAll_eq_get, same]
  · rw [LocalStore.getMatching]
    split
    · rename_i inside
      rw [kept.getMatching_inside decodeMaybeDocument inside, same]
    · rename_i outside
      exact getMatching_outside decodeMaybeDocument (Bool.not_eq_true _ ▸ outside)

end LevelDbRemoteDocumentCache

end DogFoodTracker.Core
