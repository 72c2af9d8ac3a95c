import DogFoodTracker.Core.MutationQueue
import Mathlib.Logic.Function.Basic

/-! # The local store

What the client keeps on the device: the pending batches of its users, and for every
document the last thing the backend has said of it. What a user sees of a document is
the cached one with the user's pending batches applied.
-/

namespace DogFoodTracker.Core

/-- A change to what the backend has said, with the version of the whole. -/
structure RemoteEvent where
  snapshotVersion : SnapshotVersion
  documentUpdates : List (DocumentKey × MaybeDocument)
  distinct : (documentUpdates.map Prod.fst).Nodup

/-- `user` is the one whose queue is in use; the next ID is that queue's. -/
structure LocalStore where
  user : User
  mutations : Mutations
  nextBatchId : Int
  remoteDocuments : DocumentKey → Option MaybeDocument
  lastRemoteSnapshotVersion : SnapshotVersion

namespace LocalStore

/-- The store of a new installation. -/
def empty (user : User) : LocalStore where
  user := user
  mutations := []
  nextBatchId := 1
  remoteDocuments := fun _ => none
  lastRemoteSnapshotVersion := 0

/-- The pending batches of the user. -/
def queue (s : LocalStore) : List MutationBatch :=
  s.mutations.queue s.user

/-- `GetDocument` of the local view. -/
def readDocument (s : LocalStore) (key : DocumentKey) : Option MaybeDocument :=
  (s.mutations.allMutationBatchesAffectingDocumentKeys s.user [key]).foldl
    (fun document batch => batch.applyToLocalDocument document key) (s.remoteDocuments key)

/-- `StartMutationQueue`. -/
def start (s : LocalStore) : LocalStore :=
  { s with nextBatchId := s.mutations.loadNextBatchId }

def handleUserChange (s : LocalStore) (user : User) : LocalStore :=
  start { s with user := user }

def writeLocally (s : LocalStore) (mutations : List Mutation) (nonempty : mutations ≠ []) :
    MutationBatch × LocalStore :=
  let batch : MutationBatch := { batchId := s.nextBatchId, mutations, nonempty }
  (batch, { s with
    mutations := s.mutations.addMutationBatch s.user batch
    nextBatchId := s.nextBatchId + 1 })

/-- The cached document is older than the answer, so the answer is news. -/
def outdated (document : Option MaybeDocument) (version : SnapshotVersion) : Bool :=
  document.all (·.version < version)

/-- What `ApplyBatchResult` does for one of the batch's documents. -/
def applyResultTo (result : MutationBatchResult) (s : LocalStore) (key : DocumentKey) :
    Except String LocalStore :=
  match result.docVersion key with
  | none => .error "doc_versions should contain every doc in the write."
  | some ackVersion =>
      let remoteDoc := s.remoteDocuments key
      if outdated remoteDoc ackVersion then do
        match ← result.batch.applyToRemoteDocument remoteDoc key result.mutationResults with
        | none =>
            hardAssert (remoteDoc.isNone) "Mutation batch applied to document resulted in nullopt."
            return s
        | some doc =>
            return { s with remoteDocuments := Function.update s.remoteDocuments key (some doc) }
      else .ok s

def removeMutationBatch (s : LocalStore) (batchId : Int) : Except String LocalStore := do
  return { s with mutations := ← s.mutations.removeMutationBatch s.user batchId }

def acknowledgeBatch (s : LocalStore) (result : MutationBatchResult) : Except String LocalStore := do
  let applied ← result.batch.keys.foldlM (applyResultTo result) s
  applied.removeMutationBatch result.batch.batchId

def rejectBatch (s : LocalStore) (batchId : Int) : Except String LocalStore :=
  match s.mutations.lookupMutationBatch s.user batchId with
  | none => .error "Attempt to reject nonexistent batch!"
  | some toReject => s.removeMutationBatch toReject.batchId

/-- What `ApplyRemoteEvent` does for one document. A missing document without a version is
    made up by the client when it has lost access. -/
def applyUpdate (event : RemoteEvent) (s : LocalStore) (update : DocumentKey × MaybeDocument) :
    Except String LocalStore :=
  let (key, doc) := update
  let put (s : LocalStore) : Except String LocalStore := do
    hardAssert (event.snapshotVersion ≠ 0) "Cannot add a document when the remote version is zero"
    return { s with remoteDocuments := Function.update s.remoteDocuments key (some doc) }
  match doc with
  | .noDocument 0 _ => .ok { s with remoteDocuments := Function.update s.remoteDocuments key none }
  | doc =>
      match s.remoteDocuments key with
      | none => put s
      | some existing =>
          if existing.version < doc.version ∨
              (doc.version = existing.version ∧ existing.hasPendingWrites = true) then put s
          else .ok s

def applyRemoteEvent (s : LocalStore) (event : RemoteEvent) : Except String LocalStore := do
  let s ← event.documentUpdates.foldlM (applyUpdate event) s
  if event.snapshotVersion = 0 then return s
  else
    hardAssert (s.lastRemoteSnapshotVersion ≤ event.snapshotVersion)
      "Watch stream reverted to previous snapshot??"
    return { s with lastRemoteSnapshotVersion := event.snapshotVersion }

/-! ## What settling a batch does -/

/-- The cached document after the answer to a batch that is about it. -/
def acknowledged (result : MutationBatchResult) (document : Option MaybeDocument)
    (key : DocumentKey) : Option MaybeDocument :=
  match result.docVersion key with
  | some ackVersion =>
      if outdated document ackVersion then
        result.batch.committed document key result.mutationResults
      else document
  | none => document

/-- The first batch of the user's queue is gone and nothing else has happened to a queue. -/
structure HeadRemoved (s t : LocalStore) (rest : List MutationBatch) : Prop where
  user : t.user = s.user
  nextBatchId : t.nextBatchId = s.nextBatchId
  lastRemoteSnapshotVersion : t.lastRemoteSnapshotVersion = s.lastRemoteSnapshotVersion
  numbered : t.mutations.Numbered t.nextBatchId
  queues : ∀ other,
    t.mutations.queue other = if s.user = other then rest else s.mutations.queue other

theorem HeadRemoved.queue {s t : LocalStore} {rest : List MutationBatch}
    (removed : HeadRemoved s t rest) : t.queue = rest := by
  rw [LocalStore.queue, removed.queues, removed.user, if_pos rfl]

variable {s : LocalStore} {batch : MutationBatch} {rest : List MutationBatch}

theorem removeMutationBatch_head (numbered : s.mutations.Numbered s.nextBatchId)
    (head : s.queue = batch :: rest) :
    ∃ t, s.removeMutationBatch batch.batchId = .ok t ∧ HeadRemoved s t rest ∧
      t.remoteDocuments = s.remoteDocuments := by
  obtain ⟨fewer, removed, numbered', queues⟩ := numbered.remove head
  refine ⟨{ s with mutations := fewer }, ?_, ⟨rfl, rfl, rfl, numbered', queues⟩, rfl⟩
  simp only [removeMutationBatch, removed]
  rfl

theorem rejectBatch_head (numbered : s.mutations.Numbered s.nextBatchId)
    (head : s.queue = batch :: rest) :
    ∃ t, s.rejectBatch batch.batchId = .ok t ∧ HeadRemoved s t rest ∧
      t.remoteDocuments = s.remoteDocuments := by
  have member : batch ∈ s.mutations.queue s.user := by
    rw [← queue, head]
    exact List.mem_cons_self
  simp only [rejectBatch, numbered.lookup member]
  exact removeMutationBatch_head numbered head

theorem applyResultTo_eq (result : MutationBatchResult)
    (sized : result.mutationResults.length = result.batch.mutations.length) {key : DocumentKey}
    (affected : result.batch.affects key = true) :
    applyResultTo result s key = .ok { s with
      remoteDocuments := Function.update s.remoteDocuments key
        (acknowledged result (s.remoteDocuments key) key) } := by
  obtain ⟨doc, committed, answered⟩ :=
    result.docVersion_committed sized affected (s.remoteDocuments key)
  simp only [applyResultTo, acknowledged, answered]
  split
  · simp only [result.batch.applyToRemoteDocument_eq sized, committed]
    rfl
  · rw [Function.update_eq_self]

theorem foldlM_applyResultTo (result : MutationBatchResult)
    (sized : result.mutationResults.length = result.batch.mutations.length)
    (keys : List DocumentKey) (distinct : keys.Nodup)
    (affected : ∀ key ∈ keys, result.batch.affects key = true) :
    keys.foldlM (applyResultTo result) s = .ok { s with
      remoteDocuments := fun key =>
        if key ∈ keys then acknowledged result (s.remoteDocuments key) key
        else s.remoteDocuments key } := by
  induction keys generalizing s with
  | nil => simp [pure, Except.pure]
  | cons key keys ih =>
      rw [List.nodup_cons] at distinct
      rw [List.foldlM_cons, applyResultTo_eq result sized (affected key List.mem_cons_self)]
      simp only [bind, Except.bind]
      rw [ih distinct.2 fun other member => affected other (List.mem_cons_of_mem _ member)]
      congr 2
      funext other
      by_cases here : other = key
      · subst here
        simp [distinct.1]
      · simp [here]

theorem acknowledgeBatch_head (numbered : s.mutations.Numbered s.nextBatchId)
    (result : MutationBatchResult) (head : s.queue = result.batch :: rest)
    (sized : result.mutationResults.length = result.batch.mutations.length) :
    ∃ t, s.acknowledgeBatch result = .ok t ∧ HeadRemoved s t rest ∧
      ∀ key, t.remoteDocuments key =
        if result.batch.affects key then acknowledged result (s.remoteDocuments key) key
        else s.remoteDocuments key := by
  have applied := foldlM_applyResultTo (s := s) result sized result.batch.keys
    (List.nodup_dedup _) fun key member => MutationBatch.affects_iff.mpr member
  simp only [acknowledgeBatch, applied, bind, Except.bind]
  obtain ⟨t, removed, gone, cache⟩ := removeMutationBatch_head (s := { s with
      remoteDocuments := fun key =>
        if key ∈ result.batch.keys then acknowledged result (s.remoteDocuments key) key
        else s.remoteDocuments key }) numbered head
  refine ⟨t, removed, ⟨gone.user, gone.nextBatchId, gone.lastRemoteSnapshotVersion, gone.numbered,
    gone.queues⟩, ?_⟩
  intro key
  simp only [cache, MutationBatch.affects_iff]

/-! ## What a change of the backend's does -/

/-- A document that is missing since version zero is one the client has lost access to. -/
def invented : MaybeDocument → Bool
  | .noDocument 0 _ => true
  | _ => false

/-- The backend's document is to replace the cached one. -/
def supersedes (doc : MaybeDocument) : Option MaybeDocument → Bool
  | none => true
  | some existing =>
      existing.version < doc.version ||
        doc.version = existing.version && existing.hasPendingWrites

/-- The update puts a document into the cache. -/
def adds (s : LocalStore) (update : DocumentKey × MaybeDocument) : Bool :=
  !invented update.2 && supersedes update.2 (s.remoteDocuments update.1)

/-- The cached document after an update of it. -/
def updated (doc : MaybeDocument) (existing : Option MaybeDocument) : Option MaybeDocument :=
  if invented doc then none else if supersedes doc existing then some doc else existing

/-- The cached document after all updates. -/
def updatedBy (updates : List (DocumentKey × MaybeDocument)) (key : DocumentKey)
    (existing : Option MaybeDocument) : Option MaybeDocument :=
  match updates.lookup key with
  | some doc => updated doc existing
  | none => existing

/-- The events that the backend may send: only one with a version puts documents into the
    cache, and the versions do not go back. -/
def accepts (s : LocalStore) (event : RemoteEvent) : Bool :=
  if event.snapshotVersion = 0 then event.documentUpdates.all fun update => !s.adds update
  else s.lastRemoteSnapshotVersion ≤ event.snapshotVersion

theorem applyUpdate_eq (event : RemoteEvent) (update : DocumentKey × MaybeDocument) :
    applyUpdate event s update =
      if s.adds update ∧ event.snapshotVersion = 0 then
        .error "Cannot add a document when the remote version is zero"
      else .ok { s with
        remoteDocuments := Function.update s.remoteDocuments update.1
          (updated update.2 (s.remoteDocuments update.1)) } := by
  obtain ⟨key, doc⟩ := update
  cases gone : invented doc with
  | true =>
      have zero : ∃ pending, doc = .noDocument 0 pending := by
        unfold invented at gone
        split at gone
        · exact ⟨_, rfl⟩
        · cases gone
      obtain ⟨pending, rfl⟩ := zero
      simp [applyUpdate, adds, updated, invented]
  | false =>
      let put : Except String LocalStore := do
        hardAssert (event.snapshotVersion ≠ 0)
          "Cannot add a document when the remote version is zero"
        return { s with remoteDocuments := Function.update s.remoteDocuments key (some doc) }
      have branches : applyUpdate event s (key, doc) =
          if supersedes doc (s.remoteDocuments key) then put else .ok s := by
        have compared : applyUpdate event s (key, doc) =
            match s.remoteDocuments key with
            | none => put
            | some existing =>
                if existing.version < doc.version ∨
                    (doc.version = existing.version ∧ existing.hasPendingWrites = true) then put
                else .ok s := by
          cases doc with
          | document => rfl
          | unknownDocument => rfl
          | noDocument version pending =>
              cases version with
              | zero => cases gone
              | succ => rfl
        rw [compared]
        cases s.remoteDocuments key with
        | none => rfl
        | some existing => simp [supersedes]
      rw [branches]
      simp only [adds, updated, gone, Bool.not_false, Bool.true_and, Bool.false_eq_true, if_false]
      by_cases newer : supersedes doc (s.remoteDocuments key) = true
      · by_cases zero : event.snapshotVersion = 0
        · simp [put, newer, zero, hardAssert]
        · simp [put, newer, zero, hardAssert]
      · simp [newer]

theorem foldlM_applyUpdate (event : RemoteEvent) (updates : List (DocumentKey × MaybeDocument))
    (distinct : (updates.map Prod.fst).Nodup)
    (allowed : ∀ update ∈ updates, ¬ (s.adds update = true ∧ event.snapshotVersion = 0)) :
    updates.foldlM (applyUpdate event) s = .ok { s with
      remoteDocuments := fun key => updatedBy updates key (s.remoteDocuments key) } := by
  induction updates generalizing s with
  | nil => rfl
  | cons update rest ih =>
      obtain ⟨name, doc⟩ := update
      rw [List.map_cons, List.nodup_cons] at distinct
      have elsewhere : ∀ later ∈ rest, later.1 ≠ name :=
        fun later member same => distinct.1 (List.mem_map.mpr ⟨later, member, same⟩)
      rw [List.foldlM_cons, applyUpdate_eq, if_neg (allowed (name, doc) List.mem_cons_self)]
      simp only [bind, Except.bind]
      rw [ih distinct.2]
      · congr 2
        funext key
        by_cases here : key = name
        · subst key
          have once : rest.lookup name = none := by
            apply List.lookup_eq_none_iff.mpr
            intro later member
            simpa using Ne.symm (elsewhere later member)
          simp [updatedBy, once]
        · have apart : (key == name) = false := by simpa using here
          simp [updatedBy, List.lookup_cons, here, apart]
      · intro later member
        simpa [adds, elsewhere later member] using allowed later (List.mem_cons_of_mem _ member)

/-- An update without a version that puts something into the cache fails, wherever it is. -/
theorem foldlM_applyUpdate_error (event : RemoteEvent)
    (updates : List (DocumentKey × MaybeDocument)) (distinct : (updates.map Prod.fst).Nodup)
    (forbidden : ∃ update ∈ updates, s.adds update = true ∧ event.snapshotVersion = 0) :
    ∃ message, updates.foldlM (applyUpdate event) s = .error message := by
  induction updates generalizing s with
  | nil => simp at forbidden
  | cons update rest ih =>
      rw [List.map_cons, List.nodup_cons] at distinct
      rw [List.foldlM_cons, applyUpdate_eq]
      by_cases now : s.adds update = true ∧ event.snapshotVersion = 0
      · rw [if_pos now]
        exact ⟨_, rfl⟩
      · rw [if_neg now]
        apply ih distinct.2
        obtain ⟨later, member, adding⟩ := forbidden
        rcases List.mem_cons.mp member with rfl | member
        · exact absurd adding now
        · refine ⟨later, member, ?_, adding.2⟩
          have apart : later.1 ≠ update.1 := fun same =>
            distinct.1 (same ▸ List.mem_map_of_mem member)
          simpa [adds, apart] using adding.1

/-- The store that the client has after an event. -/
def afterEvent (s : LocalStore) (event : RemoteEvent) : LocalStore :=
  { s with
    remoteDocuments := fun key => updatedBy event.documentUpdates key (s.remoteDocuments key)
    lastRemoteSnapshotVersion :=
      if event.snapshotVersion = 0 then s.lastRemoteSnapshotVersion else event.snapshotVersion }

theorem applyRemoteEvent_spec (s : LocalStore) (event : RemoteEvent) :
    if s.accepts event then s.applyRemoteEvent event = .ok (s.afterEvent event)
    else ∃ message, s.applyRemoteEvent event = .error message := by
  by_cases zero : event.snapshotVersion = 0
  · by_cases allowed : ∀ update ∈ event.documentUpdates, s.adds update = false
    · have accepted : s.accepts event = true := by simpa [accepts, zero] using allowed
      have folded := foldlM_applyUpdate (s := s) event event.documentUpdates event.distinct
        fun update member adding => by simp [allowed update member] at adding
      rw [if_pos accepted, applyRemoteEvent, folded]
      simp [afterEvent, zero, bind, Except.bind, pure, Except.pure]
    · have refused : ¬ s.accepts event = true := by simpa [accepts, zero] using allowed
      have forbidden : ∃ update ∈ event.documentUpdates,
          s.adds update = true ∧ event.snapshotVersion = 0 := by
        simpa [zero] using allowed
      obtain ⟨message, failed⟩ :=
        foldlM_applyUpdate_error event event.documentUpdates event.distinct forbidden
      rw [if_neg refused, applyRemoteEvent, failed]
      exact ⟨message, rfl⟩
  · have folded := foldlM_applyUpdate (s := s) event event.documentUpdates event.distinct
      fun update _ adding => zero adding.2
    rw [applyRemoteEvent, folded]
    by_cases forward : s.lastRemoteSnapshotVersion ≤ event.snapshotVersion
    · have accepted : s.accepts event = true := by simpa [accepts, zero] using forward
      rw [if_pos accepted]
      simp [afterEvent, zero, hardAssert, forward, bind, Except.bind, pure, Except.pure]
    · have refused : ¬ s.accepts event = true := by simpa [accepts, zero] using forward
      rw [if_neg refused]
      simp [zero, hardAssert, forward, bind, Except.bind]

end LocalStore

end DogFoodTracker.Core
