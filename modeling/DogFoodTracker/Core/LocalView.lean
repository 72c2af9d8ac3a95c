import DogFoodTracker.Core.LocalStore

/-! # What a user sees of the local store

The pending batches of the user lie over the cached documents. The data seen is the
cached data with the effects of the batches in turn, whatever the store has been through,
and the answer to a batch moves its effect from the queue into the cache.
-/

namespace DogFoodTracker.Core.LocalStore

variable {s t : LocalStore} {key : DocumentKey} {batch : MutationBatch} {rest : List MutationBatch}

/-! ## One document -/

/-- The effects of pending batches on the data of a document. -/
def pendingEffect (batches : List MutationBatch) (key : DocumentKey) (data : Option ObjectValue) :
    Option ObjectValue :=
  batches.foldl (fun data batch => batch.effect key data) data

/-- The data that is seen of a document. -/
def seen (s : LocalStore) (key : DocumentKey) : Option ObjectValue :=
  contents (s.readDocument key)

/-- Every pending batch of every user is as the API writes it. -/
def Plain (s : LocalStore) : Prop :=
  ∀ row ∈ s.mutations, row.2.Plain

theorem Plain.queue (plain : s.Plain) : ∀ batch ∈ s.queue, batch.Plain :=
  fun batch member => plain (s.user, batch) (Mutations.mem_queue.mp member)

/-- The batches found through the index have the effect of the whole queue. -/
theorem readDocument_eq (s : LocalStore) (key : DocumentKey) :
    s.readDocument key =
      s.queue.foldl (fun document batch => batch.applyToLocalDocument document key)
        (s.remoteDocuments key) := by
  rw [readDocument, Mutations.allMutationBatchesAffectingDocumentKeys, ← queue]
  generalize s.remoteDocuments key = document
  induction s.queue generalizing document with
  | nil => rfl
  | cons batch rest ih =>
      rw [List.filter_cons]
      split
      · simp only [List.foldl_cons, ih]
      · rename_i unaffected
        have other : batch.affects key = false := by simpa using unaffected
        simp only [List.foldl_cons, ih, MutationBatch.applyToLocalDocument_other other]

theorem Plain.seen (plain : s.Plain) (key : DocumentKey) :
    s.seen key = pendingEffect s.queue key (contents (s.remoteDocuments key)) := by
  have each := plain.queue
  rw [LocalStore.seen, readDocument_eq, pendingEffect]
  generalize s.remoteDocuments key = document
  generalize s.queue = batches at each
  induction batches generalizing document with
  | nil => rfl
  | cons batch rest ih =>
      simp only [List.foldl_cons]
      rw [ih _ fun other member => each other (List.mem_cons_of_mem _ member),
        (each batch List.mem_cons_self).applyToLocalDocument]

theorem Plain.writeLocally (plain : s.Plain) {mutations : List Mutation} (nonempty : mutations ≠ [])
    (mine : ∀ mutation ∈ mutations, mutation.Plain) :
    (s.writeLocally mutations nonempty).2.Plain := by
  intro row member
  rcases List.mem_append.mp member with old | new
  · exact plain row old
  · obtain rfl := List.mem_singleton.mp new
    exact mine

/-- A write is seen at once, as its effect on what was seen before. -/
theorem seen_writeLocally (plain : s.Plain) (mutations : List Mutation) (nonempty : mutations ≠ [])
    (mine : ∀ mutation ∈ mutations, mutation.Plain) (key : DocumentKey) :
    (s.writeLocally mutations nonempty).2.seen key =
      (s.writeLocally mutations nonempty).1.effect key (s.seen key) := by
  have plain' : (s.writeLocally mutations nonempty).2.Plain := plain.writeLocally nonempty mine
  have appended : (s.writeLocally mutations nonempty).2.queue =
      s.queue ++ [(s.writeLocally mutations nonempty).1] := by
    simp only [writeLocally, queue, Mutations.queue_addMutationBatch, if_true]
  rw [plain'.seen, appended, plain.seen]
  simp only [pendingEffect, List.foldl_append, List.foldl_cons, List.foldl_nil]
  rfl

theorem HeadRemoved.plain (removed : HeadRemoved s t rest) (head : s.queue = batch :: rest)
    (plain : s.Plain) : t.Plain := by
  intro row member
  have queued : row.2 ∈ t.mutations.queue row.1 := Mutations.mem_queue.mpr member
  rw [removed.queues] at queued
  split at queued
  · rename_i mine
    apply plain (s.user, row.2)
    apply Mutations.mem_queue.mp
    rw [← LocalStore.queue, head]
    exact List.mem_cons_of_mem _ queued
  · exact plain row (Mutations.mem_queue.mp queued)

/-- The answer to a batch changes nothing that is seen of a document, unless the cache has
    already been told something newer. -/
theorem seen_acknowledgeBatch (plain : s.Plain) (numbered : s.mutations.Numbered s.nextBatchId)
    (result : MutationBatchResult) (head : s.queue = result.batch :: rest)
    (sized : result.mutationResults.length = result.batch.mutations.length)
    (acknowledged : s.acknowledgeBatch result = .ok t) (key : DocumentKey) :
    t.seen key =
      if (result.docVersion key).all (outdated (s.remoteDocuments key)) then s.seen key
      else pendingEffect rest key (contents (s.remoteDocuments key)) := by
  obtain ⟨t', acknowledged', removed, cache⟩ := acknowledgeBatch_head numbered result head sized
  obtain rfl : t = t' := Except.ok.inj (acknowledged.symm.trans acknowledged')
  have batchPlain : result.batch.Plain :=
    plain.queue result.batch (by rw [head]; exact List.mem_cons_self)
  rw [(removed.plain head plain).seen, removed.queue, cache, plain.seen, head, pendingEffect,
    pendingEffect, List.foldl_cons, ← pendingEffect, ← pendingEffect]
  cases affected : result.batch.affects key with
  | false => simp [MutationBatch.effect_other affected]
  | true =>
      obtain ⟨doc, -, answered⟩ :=
        result.docVersion_committed sized affected (s.remoteDocuments key)
      simp only [LocalStore.acknowledged, answered, if_true, Option.all_some]
      split
      · rw [batchPlain.committed sized]
      · rfl

end DogFoodTracker.Core.LocalStore
