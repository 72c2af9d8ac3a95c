import DogFoodTracker.Core.Mutation
import Mathlib.Data.List.Dedup
import Mathlib.Order.Lattice

/-! # Mutation batches and their queues

Every write is a batch of mutations, kept with its user until the backend has answered
it. The batches of all users are one table, each new one with a larger ID than any before
it, and the queue of a user is the part of the table that is theirs.
-/

namespace DogFoodTracker.Core

/-- The user ID, empty for a user who is not signed in. -/
abbrev User := String

/-- The ID of no batch; batch IDs are integers. -/
def kBatchIdUnknown : Int := -1

/-- What stops the process when it fails. -/
def hardAssert (condition : Prop) [Decidable condition] (message : String) : Except String Unit :=
  if condition then .ok () else .error message

/-- `base_mutations` are left out: only field transforms have any. -/
structure MutationBatch where
  batchId : Int
  mutations : List Mutation
  nonempty : mutations ≠ []

/-- The backend's answer to a batch, with a version for each of its mutations. -/
structure MutationBatchResult where
  batch : MutationBatch
  commitVersion : SnapshotVersion
  mutationResults : List SnapshotVersion

namespace MutationBatch

def keys (batch : MutationBatch) : List DocumentKey :=
  (batch.mutations.map Mutation.key).dedup

def affects (batch : MutationBatch) (key : DocumentKey) : Bool :=
  batch.mutations.any (·.key = key)

def applyToLocalDocument (batch : MutationBatch) (document : Option MaybeDocument)
    (key : DocumentKey) : Option MaybeDocument :=
  batch.mutations.foldl
    (fun document mutation =>
      if mutation.key = key then mutation.applyToLocalView document else document) document

def applyToRemoteDocument (batch : MutationBatch) (document : Option MaybeDocument)
    (key : DocumentKey) (results : List SnapshotVersion) : Except String (Option MaybeDocument) := do
  hardAssert (results.length = batch.mutations.length)
    "Mismatch between mutations length and results length"
  return (batch.mutations.zip results).foldl
    (fun document result =>
      if result.1.key = key then some (result.1.applyToRemoteDocument document result.2)
      else document) document

/-- What the batch asks of the data of a document. -/
def effect (batch : MutationBatch) (key : DocumentKey) (data : Option ObjectValue) :
    Option ObjectValue :=
  batch.mutations.foldl
    (fun data mutation => if mutation.key = key then mutation.effect data else data) data

/-- All mutations of the batch are as the API writes them. -/
def Plain (batch : MutationBatch) : Prop :=
  ∀ mutation ∈ batch.mutations, mutation.Plain

end MutationBatch

/-- `doc_versions`: the version of the last mutation of a document. -/
def MutationBatchResult.docVersion (result : MutationBatchResult) (key : DocumentKey) :
    Option SnapshotVersion :=
  (result.batch.mutations.zip result.mutationResults).foldl
    (fun version entry => if entry.1.key = key then some entry.2 else version) none

namespace MutationBatch

variable {batch : MutationBatch} {key : DocumentKey}

theorem affects_iff : batch.affects key = true ↔ key ∈ batch.keys := by
  simp [affects, keys]

/-- A batch leaves a document alone that none of its mutations is about. -/
theorem applyToLocalDocument_other (other : batch.affects key = false)
    (document : Option MaybeDocument) : batch.applyToLocalDocument document key = document := by
  have none_here : ∀ mutation ∈ batch.mutations, mutation.key ≠ key := by
    simpa [affects] using other
  rw [applyToLocalDocument]
  generalize batch.mutations = mutations at none_here
  induction mutations with
  | nil => rfl
  | cons mutation rest ih =>
      rw [List.foldl_cons, if_neg (none_here mutation List.mem_cons_self)]
      exact ih fun later member => none_here later (List.mem_cons_of_mem _ member)

theorem effect_other (other : batch.affects key = false) (data : Option ObjectValue) :
    batch.effect key data = data := by
  have none_here : ∀ mutation ∈ batch.mutations, mutation.key ≠ key := by
    simpa [affects] using other
  rw [effect]
  generalize batch.mutations = mutations at none_here
  induction mutations with
  | nil => rfl
  | cons mutation rest ih =>
      rw [List.foldl_cons, if_neg (none_here mutation List.mem_cons_self)]
      exact ih fun later member => none_here later (List.mem_cons_of_mem _ member)

/-- What is shown of a document while a batch is pending. -/
theorem Plain.applyToLocalDocument (plain : batch.Plain) (document : Option MaybeDocument) :
    contents (batch.applyToLocalDocument document key) = batch.effect key (contents document) := by
  rw [MutationBatch.applyToLocalDocument, effect]
  rw [MutationBatch.Plain] at plain
  generalize batch.mutations = mutations at plain
  induction mutations generalizing document with
  | nil => rfl
  | cons mutation rest ih =>
      have later : ∀ other ∈ rest, other.Plain :=
        fun other member => plain other (List.mem_cons_of_mem _ member)
      simp only [List.foldl_cons]
      split
      · rw [ih _ later, (plain mutation List.mem_cons_self).applyToLocalView]
      · exact ih document later

/-- The document that `applyToRemoteDocument` leaves, when there is a result for each mutation. -/
def committed (batch : MutationBatch) (document : Option MaybeDocument) (key : DocumentKey)
    (results : List SnapshotVersion) : Option MaybeDocument :=
  (batch.mutations.zip results).foldl
    (fun document result =>
      if result.1.key = key then some (result.1.applyToRemoteDocument document result.2)
      else document) document

theorem applyToRemoteDocument_eq {results : List SnapshotVersion}
    (sized : results.length = batch.mutations.length) (document : Option MaybeDocument) :
    batch.applyToRemoteDocument document key results =
      .ok (batch.committed document key results) := by
  simp only [applyToRemoteDocument, hardAssert, if_pos sized]
  rfl

/-- Committing has the effect that was shown while the batch was pending. -/
theorem Plain.committed (plain : batch.Plain) {results : List SnapshotVersion}
    (sized : results.length = batch.mutations.length) (document : Option MaybeDocument) :
    contents (batch.committed document key results) = batch.effect key (contents document) := by
  rw [MutationBatch.committed, effect]
  rw [MutationBatch.Plain] at plain
  generalize batch.mutations = mutations at plain sized
  induction mutations generalizing document results with
  | nil => rfl
  | cons mutation rest ih =>
      cases results with
      | nil => cases sized
      | cons version results =>
          have later : ∀ other ∈ rest, other.Plain :=
            fun other member => plain other (List.mem_cons_of_mem _ member)
          have shorter : results.length = rest.length := Nat.succ.inj sized
          simp only [List.zip_cons_cons, List.foldl_cons]
          split
          · rw [ih _ later shorter, (plain mutation List.mem_cons_self).applyToRemoteDocument]
          · exact ih document later shorter

end MutationBatch

/-- A document of the batch gets an answer, and becomes one of the answer's version. -/
theorem MutationBatchResult.docVersion_committed (result : MutationBatchResult)
    (sized : result.mutationResults.length = result.batch.mutations.length) {key : DocumentKey}
    (affected : result.batch.affects key = true) (document : Option MaybeDocument) :
    ∃ doc, result.batch.committed document key result.mutationResults = some doc ∧
      result.docVersion key = some doc.version := by
  -- Either nothing has been about the key so far, or document and version go together.
  have together : ∀ (entries : List (Mutation × SnapshotVersion)) (document : Option MaybeDocument)
      (version : Option SnapshotVersion),
      (∃ entry ∈ entries, entry.1.key = key) ∨ document.map MaybeDocument.version = version ∧
        version.isSome = true →
      ∃ doc, entries.foldl
          (fun document result =>
            if result.1.key = key then some (result.1.applyToRemoteDocument document result.2)
            else document) document = some doc ∧
        entries.foldl (fun version entry => if entry.1.key = key then some entry.2 else version)
          version = some doc.version := by
    intro entries
    induction entries with
    | nil =>
        rintro document version (⟨entry, member, -⟩ | ⟨rfl, isSome⟩)
        · cases member
        · cases document with
          | none => cases isSome
          | some doc => exact ⟨doc, rfl, rfl⟩
    | cons entry rest ih =>
        rintro document version start
        simp only [List.foldl_cons]
        by_cases here : entry.1.key = key
        · simp only [if_pos here]
          apply ih
          exact .inr ⟨by simp, rfl⟩
        · simp only [if_neg here]
          apply ih
          rcases start with ⟨other, member, same⟩ | start
          · cases member with
            | head => exact absurd same here
            | tail _ later => exact .inl ⟨other, later, same⟩
          · exact .inr start
  apply together
  left
  obtain ⟨mutation, member, same⟩ : ∃ mutation ∈ result.batch.mutations, mutation.key = key := by
    simpa [MutationBatch.affects] using affected
  obtain ⟨n, less, rfl⟩ := List.getElem_of_mem member
  refine ⟨(result.batch.mutations[n], result.mutationResults[n]), ?_, same⟩
  rw [List.mem_iff_getElem]
  refine ⟨n, ?_, List.getElem_zip⟩
  rw [List.length_zip]
  omega

/-! ## The queues -/

/-- The pending batches of all users, in the order they were written in. -/
abbrev Mutations := List (User × MutationBatch)

namespace Mutations

/-- The queue of a user. -/
def queue (mutations : Mutations) (user : User) : List MutationBatch :=
  (mutations.filter (·.1 = user)).map Prod.snd

/-- `LoadNextBatchIdFromDb`: one more than the largest ID of any user's batch. -/
def loadNextBatchId (mutations : Mutations) : Int :=
  mutations.foldl (fun largest row => max largest row.2.batchId) 0 + 1

def addMutationBatch (mutations : Mutations) (user : User) (batch : MutationBatch) : Mutations :=
  mutations ++ [(user, batch)]

def lookupMutationBatch (mutations : Mutations) (user : User) (batchId : Int) :
    Option MutationBatch :=
  (mutations.queue user).find? (·.batchId = batchId)

def nextMutationBatchAfterBatchId (mutations : Mutations) (user : User) (batchId : Int) :
    Option MutationBatch :=
  (mutations.queue user).find? (batchId + 1 ≤ ·.batchId)

def getHighestUnacknowledgedBatchId (mutations : Mutations) (user : User) : Int :=
  ((mutations.queue user).getLast?.map MutationBatch.batchId).getD kBatchIdUnknown

def allMutationBatchesAffectingDocumentKeys (mutations : Mutations) (user : User)
    (keys : List DocumentKey) : List MutationBatch :=
  (mutations.queue user).filter fun batch => keys.any batch.affects

def removeMutationBatch (mutations : Mutations) (user : User) (batchId : Int) :
    Except String Mutations := do
  hardAssert (mutations.lookupMutationBatch user batchId).isSome "Mutation batch did not exist"
  return mutations.filter fun row => ¬ (row.1 = user ∧ row.2.batchId = batchId)

/-- The IDs grow along the table and are used up below `next`. -/
structure Numbered (mutations : Mutations) (next : Int) : Prop where
  increasing : mutations.Pairwise fun row later => row.2.batchId < later.2.batchId
  positive : ∀ row ∈ mutations, 0 < row.2.batchId
  below : ∀ row ∈ mutations, row.2.batchId < next
  next_positive : 0 < next

variable {mutations : Mutations} {next : Int}

theorem queue_append (mutations later : Mutations) (user : User) :
    (mutations ++ later).queue user = mutations.queue user ++ later.queue user := by
  simp only [queue, List.filter_append, List.map_append]

theorem queue_cons (user other : User) (batch : MutationBatch) (rest : Mutations) :
    queue ((user, batch) :: rest) other =
      if user = other then batch :: rest.queue other else rest.queue other := by
  by_cases same : user = other <;> simp [queue, same]

@[simp] theorem queue_nil (user : User) : queue [] user = [] := rfl

theorem queue_addMutationBatch (user other : User) (batch : MutationBatch) :
    (mutations.addMutationBatch user batch).queue other =
      mutations.queue other ++ if user = other then [batch] else [] := by
  rw [addMutationBatch, queue_append, queue_cons, queue_nil]

theorem mem_queue {user : User} {batch : MutationBatch} :
    batch ∈ mutations.queue user ↔ (user, batch) ∈ mutations := by
  simp [queue]

theorem Numbered.queue (numbered : mutations.Numbered next) (user : User) :
    (mutations.queue user).Pairwise fun batch later => batch.batchId < later.batchId :=
  (numbered.increasing.filter _).map _ fun _ _ less => less

theorem Numbered.add (numbered : mutations.Numbered next) (user : User) (batch : MutationBatch)
    (fresh : batch.batchId = next) :
    (mutations.addMutationBatch user batch).Numbered (next + 1) where
  increasing := by
    rw [addMutationBatch, List.pairwise_append]
    refine ⟨numbered.increasing, List.pairwise_singleton _ _, ?_⟩
    intro row member last isLast
    obtain rfl := List.mem_singleton.mp isLast
    exact fresh ▸ numbered.below row member
  positive := by
    intro row member
    rcases List.mem_append.mp member with old | new
    · exact numbered.positive row old
    · obtain rfl := List.mem_singleton.mp new
      exact fresh ▸ numbered.next_positive
  below := by
    intro row member
    rcases List.mem_append.mp member with old | new
    · have := numbered.below row old
      omega
    · obtain rfl := List.mem_singleton.mp new
      simp only [fresh]
      omega
  next_positive := by
    have := numbered.next_positive
    omega

theorem Numbered.sublist {fewer : Mutations} (numbered : mutations.Numbered next)
    (sub : fewer.Sublist mutations) : fewer.Numbered next where
  increasing := numbered.increasing.sublist sub
  positive := fun row member => numbered.positive row (sub.subset member)
  below := fun row member => numbered.below row (sub.subset member)
  next_positive := numbered.next_positive

/-- The IDs may be used again once their batches are gone. -/
theorem Numbered.loadNextBatchId (numbered : mutations.Numbered next) :
    mutations.Numbered mutations.loadNextBatchId := by
  have bounds : ∀ (rows : Mutations) (start : Int),
      start ≤ rows.foldl (fun largest row => max largest row.2.batchId) start ∧
        ∀ row ∈ rows,
          row.2.batchId ≤ rows.foldl (fun largest row => max largest row.2.batchId) start := by
    intro rows
    induction rows with
    | nil => intro start; simp
    | cons row rest ih =>
        intro start
        obtain ⟨above, each⟩ := ih (max start row.2.batchId)
        simp only [List.foldl_cons]
        refine ⟨le_trans (le_max_left _ _) above, ?_⟩
        intro other member
        cases member with
        | head => exact le_trans (le_max_right _ _) above
        | tail _ later => exact each other later
  obtain ⟨above, each⟩ := bounds mutations 0
  exact
    { increasing := numbered.increasing
      positive := numbered.positive
      below := fun row member => Int.lt_add_one_of_le (each row member)
      next_positive := Int.lt_add_one_of_le above }

/-- An ID names one batch of the table. -/
theorem Numbered.eq_of_batchId (numbered : mutations.Numbered next) {row other : User × MutationBatch}
    (member : row ∈ mutations) (otherMember : other ∈ mutations)
    (same : row.2.batchId = other.2.batchId) : row = other := by
  obtain ⟨n, less, rfl⟩ := List.getElem_of_mem member
  obtain ⟨m, less', rfl⟩ := List.getElem_of_mem otherMember
  have ordered := List.pairwise_iff_getElem.mp numbered.increasing
  rcases Nat.lt_trichotomy n m with before | rfl | after
  · have := ordered n m less less' before
    omega
  · rfl
  · have := ordered m n less' less after
    omega

theorem Numbered.lookup (numbered : mutations.Numbered next) {user : User} {batch : MutationBatch}
    (member : batch ∈ mutations.queue user) :
    mutations.lookupMutationBatch user batch.batchId = some batch := by
  rw [lookupMutationBatch]
  cases found : (mutations.queue user).find? (·.batchId = batch.batchId) with
  | none =>
      have := List.find?_eq_none.mp found batch member
      simp at this
  | some other =>
      have same : other.batchId = batch.batchId := by simpa using List.find?_some found
      have rows := numbered.eq_of_batchId (mem_queue.mp (List.mem_of_find?_eq_some found))
        (mem_queue.mp member) same
      rw [(Prod.mk.inj rows).2]

/-- Removing a batch takes it out of its queue and leaves the others. -/
theorem Numbered.remove (numbered : mutations.Numbered next) {user : User} {batch : MutationBatch}
    {rest : List MutationBatch} (head : mutations.queue user = batch :: rest) :
    ∃ fewer, mutations.removeMutationBatch user batch.batchId = .ok fewer ∧
      fewer.Numbered next ∧
      ∀ other, fewer.queue other = if user = other then rest else mutations.queue other := by
  have member : batch ∈ mutations.queue user := by rw [head]; exact List.mem_cons_self
  have sorted := numbered.queue user
  rw [head, List.pairwise_cons] at sorted
  refine ⟨mutations.filter fun row => ¬ (row.1 = user ∧ row.2.batchId = batch.batchId), ?_,
    numbered.sublist List.filter_sublist, ?_⟩
  · simp [removeMutationBatch, hardAssert, numbered.lookup member, bind, Except.bind, pure,
      Except.pure]
  intro other
  have pulled : Mutations.queue (mutations.filter fun row => ¬ (row.1 = user ∧ row.2.batchId = batch.batchId))
      other = (mutations.queue other).filter
        fun row => ¬ (other = user ∧ row.batchId = batch.batchId) := by
    rw [Mutations.queue, Mutations.queue, List.filter_map, List.filter_filter, List.filter_filter]
    congr 1
    apply List.filter_congr
    intro row _
    by_cases mine : row.1 = other <;> simp [mine]
  rw [pulled]
  by_cases same : user = other
  · subst same
    rw [if_pos rfl, head, List.filter_cons_of_neg (by simp)]
    apply List.filter_eq_self.mpr
    intro later isLater
    have := sorted.1 later isLater
    simp only [true_and, decide_eq_true_eq]
    omega
  · rw [if_neg same]
    apply List.filter_eq_self.mpr
    intro row _
    simp [Ne.symm same]

end Mutations

end DogFoodTracker.Core
