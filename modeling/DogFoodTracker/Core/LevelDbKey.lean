import DogFoodTracker.Core.OrderedCode

/-! # Keys of the local store

All tables lie in one store: a key starts with the name of its table, and a document's goes on
with the segments of its path, each under a label. A longer path continues a shorter one,
since the label of a segment is above the one that ends a key.
-/

namespace DogFoodTracker.Core

open OrderedCode

/-- Labels of what follows in a key, as far as these keys have them. -/
inductive ComponentLabel where
  | terminator
  | tableName
  | pathSegment

namespace ComponentLabel

def value : ComponentLabel → UInt8
  | terminator => 0
  | tableName => 5
  | pathSegment => 62

/-- `WriteSignedNumIncreasing` of a label: below 64 a number is one byte, its sign bit set. -/
def written (label : ComponentLabel) : UInt8 := 0x80 ^^^ label.value

end ComponentLabel

/-! ## Writing -/

namespace Writer

def writeComponentLabel (dest : Bytes) (label : ComponentLabel) : Bytes :=
  dest ++ [label.written]

def writeLabeledString (dest : Bytes) (label : ComponentLabel) (value : Bytes) : Bytes :=
  writeString (writeComponentLabel dest label) value

def writeTableName (dest tableName : Bytes) : Bytes :=
  writeLabeledString dest .tableName tableName

def writeResourcePath (dest : Bytes) (path : List Bytes) : Bytes :=
  path.foldl (fun dest segment => writeLabeledString dest .pathSegment segment) dest

def writeTerminator (dest : Bytes) : Bytes :=
  writeComponentLabel dest .terminator

end Writer

/-! ## Reading

A reader that fails stays failed, so that a failure is one of the whole key. -/

namespace Reader

/-- `ReadComponentLabelMatching`. A number of more than one byte is no label. -/
def readComponentLabelMatching (expected : ComponentLabel) : Bytes → Option Bytes
  | c :: src => if c = expected.written then some src else none
  | [] => none

def readTableNameMatching (expected src : Bytes) : Option Bytes :=
  match readComponentLabelMatching .tableName src with
  | none => none
  | some src =>
      match readString src with
      | none => none
      | some (tableName, src) => if tableName = expected then some src else none

theorem readComponentLabelMatching_eq_some {expected : ComponentLabel} {src rest : Bytes}
    (found : readComponentLabelMatching expected src = some rest) :
    src = expected.written :: rest := by
  cases src with
  | nil => cases found
  | cons c src =>
      rw [readComponentLabelMatching] at found
      split at found
      · rename_i same
        cases found
        rw [same]
      · cases found

theorem readString_length {src segment rest : Bytes}
    (found : readString src = some (segment, rest)) : rest.length ≤ src.length := by
  rw [readString_eq_some_iff] at found
  rw [found, List.length_append]
  exact Nat.le_add_left _ _

/-- `ReadResourcePath`: the segments up to another label, which is left to read. -/
def readResourcePath (src : Bytes) : Option (List Bytes × Bytes) :=
  match _labeled : readComponentLabelMatching .pathSegment src with
  | none => some ([], src)
  | some inner =>
      match _found : readString inner with
      | none => none
      | some (segment, rest) =>
          (readResourcePath rest).map fun (path, src) => (segment :: path, src)
termination_by src.length
decreasing_by
  rw [readComponentLabelMatching_eq_some _labeled, List.length_cons]
  exact Nat.lt_succ_of_le (readString_length _found)

/-- `DocumentKey::IsDocumentKey`. -/
def isDocumentKey (path : List Bytes) : Bool := path.length % 2 = 0

def readDocumentKey (src : Bytes) : Option (List Bytes × Bytes) :=
  match readResourcePath src with
  | none => none
  | some (path, src) => if !path.isEmpty && isDocumentKey path then some (path, src) else none

def readTerminator (src : Bytes) : Option Bytes :=
  readComponentLabelMatching .terminator src

end Reader

/-! ## Keys of the documents -/

namespace LevelDbRemoteDocumentKey

/-- "remote_document". -/
def kRemoteDocumentsTable : Bytes := "remote_document".toByteArray.data.toList

def keyPrefix (path : List Bytes) : Bytes :=
  Writer.writeResourcePath (Writer.writeTableName [] kRemoteDocumentsTable) path

def key (path : List Bytes) : Bytes :=
  Writer.writeTerminator
    (Writer.writeResourcePath (Writer.writeTableName [] kRemoteDocumentsTable) path)

/-- `Decode`. What follows the terminator is not looked at. -/
def decode (key : Bytes) : Option (List Bytes) :=
  match Reader.readTableNameMatching kRemoteDocumentsTable key with
  | none => none
  | some src =>
      match Reader.readDocumentKey src with
      | none => none
      | some (path, src) => (Reader.readTerminator src).map fun _ => path

end LevelDbRemoteDocumentKey

/-! ## What is written -/

namespace Writer

theorem writeLabeledString_eq (dest : Bytes) (label : ComponentLabel) (value : Bytes) :
    writeLabeledString dest label value = dest ++ label.written :: encoded value := by
  rw [writeLabeledString, writeString_eq, writeComponentLabel, List.append_assoc]
  rfl

def pathBytes : List Bytes → Bytes
  | [] => []
  | segment :: path => ComponentLabel.pathSegment.written :: (encoded segment ++ pathBytes path)

theorem writeResourcePath_eq (dest : Bytes) (path : List Bytes) :
    writeResourcePath dest path = dest ++ pathBytes path := by
  rw [writeResourcePath]
  induction path generalizing dest with
  | nil => exact (List.append_nil dest).symm
  | cons segment path ih =>
      rw [List.foldl_cons, ih, writeLabeledString_eq, List.append_assoc]
      rfl

/-- Tables do not overlap: between two keys the names of their tables decide first. -/
theorem table_lt (tableName tableName' u v : Bytes) :
    writeTableName [] tableName ++ u < writeTableName [] tableName' ++ v ↔
      tableName < tableName' ∨ tableName = tableName' ∧ u < v := by
  rw [writeTableName, writeTableName, writeLabeledString_eq, writeLabeledString_eq,
    List.nil_append, List.nil_append, List.cons_append, List.cons_append, List.cons_lt_cons_iff,
    encoded_append_lt]
  simp

/-- Paths that are ended, and one that may be left open, are in the order of their segments. -/
theorem path_lt (path path' : List Bytes) {ending : Bytes}
    (ends : ending = [] ∨ ending = [ComponentLabel.terminator.written]) :
    pathBytes path ++ [ComponentLabel.terminator.written] < pathBytes path' ++ ending ↔
      path < path' := by
  induction path generalizing path' with
  | nil =>
      cases path' with
      | nil => rcases ends with rfl | rfl <;> decide
      | cons segment path' =>
          refine iff_of_true ?_ (List.nil_lt_cons _ _)
          exact List.cons_lt_cons_iff.mpr (.inl (by decide))
  | cons segment path ih =>
      cases path' with
      | nil =>
          refine iff_of_false ?_ (List.not_lt_nil _)
          rcases ends with rfl | rfl
          · exact List.not_lt_nil _
          · intro below
            rcases List.cons_lt_cons_iff.mp below with low | ⟨same, _⟩
            · exact absurd low (by decide)
            · exact absurd same (by decide)
      | cons segment' path' =>
          rw [pathBytes, pathBytes, List.cons_append, List.cons_append, List.cons_lt_cons_iff,
            List.append_assoc, List.append_assoc, encoded_append_lt, ih, List.cons_lt_cons_iff]
          simp

end Writer

namespace LevelDbRemoteDocumentKey

open Writer

variable {path path' : List Bytes}

theorem keyPrefix_eq (path : List Bytes) :
    keyPrefix path = writeTableName [] kRemoteDocumentsTable ++ pathBytes path :=
  writeResourcePath_eq _ path

theorem key_eq (path : List Bytes) :
    key path = writeTableName [] kRemoteDocumentsTable ++
      (pathBytes path ++ [ComponentLabel.terminator.written]) := by
  rw [key, writeTerminator, writeComponentLabel, writeResourcePath_eq, List.append_assoc]

/-- Documents lie in the order of their paths. -/
theorem key_lt_key : key path < key path' ↔ path < path' := by
  rw [key_eq, key_eq, table_lt, path_lt path path' (.inr rfl)]
  simp

theorem key_lt_keyPrefix : key path < keyPrefix path' ↔ path < path' := by
  rw [key_eq, keyPrefix_eq, table_lt, ← List.append_nil (pathBytes path'),
    path_lt path path' (.inl rfl)]
  simp

theorem key_injective : Function.Injective key := by
  intro path path' same
  by_contra different
  rcases lt_or_gt_of_ne different with below | above
  · exact (key_lt_key.mpr below).ne same
  · exact (key_lt_key.mpr above).ne same.symm

/-! ## What is read -/

theorem readTableNameMatching_written (expected tableName rest : Bytes) :
    Reader.readTableNameMatching expected (writeTableName [] tableName ++ rest) =
      if tableName = expected then some rest else none := by
  rw [writeTableName, writeLabeledString_eq, List.nil_append, List.cons_append,
    Reader.readTableNameMatching, Reader.readComponentLabelMatching, if_pos rfl]
  simp only [readString_encoded]

theorem readResourcePath_segment (segment rest : Bytes) :
    Reader.readResourcePath (ComponentLabel.pathSegment.written :: (encoded segment ++ rest)) =
      (Reader.readResourcePath rest).map fun (path, src) => (segment :: path, src) := by
  rw [Reader.readResourcePath]
  split
  · rename_i mismatch
    cases mismatch
  · rename_i inner matched
    cases matched
    split
    · rename_i failed
      rw [readString_encoded] at failed
      cases failed
    · rename_i found
      rw [readString_encoded] at found
      cases found
      rfl

theorem readResourcePath_written (path : List Bytes) :
    Reader.readResourcePath (pathBytes path ++ [ComponentLabel.terminator.written]) =
      some (path, [ComponentLabel.terminator.written]) := by
  induction path with
  | nil =>
      rw [Reader.readResourcePath]
      split
      · rfl
      · rename_i matched
        cases matched
  | cons segment path ih =>
      rw [pathBytes, List.cons_append, List.append_assoc, readResourcePath_segment, ih]
      rfl

/-- A document's key is read as its path. -/
theorem decode_key (occupied : path ≠ []) (document : Reader.isDocumentKey path = true) :
    decode (key path) = some path := by
  have whole : (!path.isEmpty && Reader.isDocumentKey path) = true := by
    simp [occupied, document]
  rw [key_eq, decode, readTableNameMatching_written, if_pos rfl]
  simp only [Reader.readDocumentKey, readResourcePath_written, whole, if_true]
  rfl

/-- A row of another table is not read. -/
theorem decode_other {tableName : Bytes} (other : tableName ≠ kRemoteDocumentsTable)
    (more : Bytes) : decode (writeTableName [] tableName ++ more) = none := by
  rw [decode, readTableNameMatching_written, if_neg other]

end LevelDbRemoteDocumentKey

end DogFoodTracker.Core
