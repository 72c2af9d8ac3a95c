import DogFoodTracker.Core.Guarantees

/-! # The cache does not go back

Answers to writes and changes of the backend's come over two streams, in any order. A
cached document is only ever replaced by a later version of it, or by the backend's own
version of what the client has put together from an answer.
-/

namespace DogFoodTracker.Core

open Transition FirestoreClient

variable {user : User} {actions later : List Action} {s t : FirestoreClient} {key : DocumentKey}
  {a : Action}

/-- What can come after a cached document. -/
def MaybeDocument.Follows (before after : MaybeDocument) : Prop :=
  before.version < after.version ∨ after = before ∨
    after.version = before.version ∧ before.hasPendingWrites = true

theorem MaybeDocument.Follows.trans {first second third : MaybeDocument}
    (left : first.Follows second) (right : second.Follows third) : first.Follows third := by
  unfold Follows at *
  rcases left with less | rfl | ⟨same, pending⟩
  · rcases right with less' | rfl | ⟨same', -⟩
    · exact .inl (less.trans less')
    · exact .inl less
    · exact .inl (same'.symm ▸ less)
  · exact right
  · rcases right with less' | rfl | ⟨same', -⟩
    · exact .inl (same ▸ less')
    · exact .inr (.inr ⟨same, pending⟩)
    · exact .inr (.inr ⟨same'.trans same, pending⟩)

/-- The document stays in the cache: it is not collected, and the client does not lose
    access to it. -/
def Action.Keeps (key : DocumentKey) : Action → Prop
  | .collectGarbage other => other ≠ key
  | .remoteEvent event =>
      ∀ doc, event.documentUpdates.lookup key = some doc → LocalStore.invented doc = false
  | _ => True

theorem acknowledged_follows (result : MutationBatchResult)
    (sized : result.mutationResults.length = result.batch.mutations.length)
    (affected : result.batch.affects key = true) (document : MaybeDocument) :
    ∃ after, LocalStore.acknowledged result (some document) key = some after ∧
      document.Follows after := by
  obtain ⟨after, committed, answered⟩ :=
    result.docVersion_committed sized affected (some document)
  simp only [LocalStore.acknowledged, answered, committed]
  split
  · rename_i older
    refine ⟨after, rfl, .inl ?_⟩
    simpa [LocalStore.outdated] using older
  · exact ⟨document, rfl, .inr (.inl rfl)⟩

theorem updated_follows {doc document : MaybeDocument} (real : LocalStore.invented doc = false) :
    ∃ after, LocalStore.updated doc (some document) = some after ∧ document.Follows after := by
  rw [LocalStore.updated, real, if_neg Bool.false_ne_true]
  split
  · rename_i newer
    refine ⟨doc, rfl, ?_⟩
    simp only [LocalStore.supersedes, Bool.or_eq_true, Bool.and_eq_true, decide_eq_true_eq] at newer
    exact newer.imp_right .inr
  · exact ⟨document, rfl, .inr (.inl rfl)⟩

/-- What an event does to a cached document and to the version of the whole cache. -/
theorem cached_step (resting : s.Resting) (taken : System.step (.ok s) a = some (.ok t))
    (key : DocumentKey) :
    s.store.lastRemoteSnapshotVersion ≤ t.store.lastRemoteSnapshotVersion ∧
      (a.Keeps key → ∀ document, s.store.remoteDocuments key = some document →
        ∃ after, t.store.remoteDocuments key = some after ∧ document.Follows after) := by
  have changes := (step_spec resting taken).2
  have unchanged : ∀ document : MaybeDocument, document.Follows document :=
    fun _ => .inr (.inl rfl)
  unfold Changes at changes
  cases happened : s.occurrence a with
  | none =>
      simp only [happened] at changes
      rw [changes.1.store]
      cases a with
      | remoteEvent event =>
          have accepted : s.store.accepts event = true := by
            simpa [ends] using not_ends resting taken
          constructor
          · change _ ≤ (s.store.afterEvent event).lastRemoteSnapshotVersion
            rw [LocalStore.accepts] at accepted
            rw [LocalStore.afterEvent]
            split at accepted
            · rename_i zero
              simp [zero]
            · rename_i nonzero
              simpa [nonzero] using accepted
          · intro keeps document cached
            change ∃ after, LocalStore.updatedBy event.documentUpdates key
              (s.store.remoteDocuments key) = some after ∧ _
            rw [LocalStore.updatedBy, cached]
            cases found : event.documentUpdates.lookup key with
            | none => exact ⟨document, rfl, unchanged document⟩
            | some doc => exact updated_follows (keeps doc found)
      | collectGarbage other =>
          refine ⟨le_rfl, fun keeps document cached => ⟨document, ?_, unchanged document⟩⟩
          change Function.update s.store.remoteDocuments other none key = some document
          rw [Function.update_of_ne (Ne.symm keeps)]
          exact cached
      | credentialChange user =>
          change _ ≤ (ofUser s.store user).lastRemoteSnapshotVersion ∧
            (_ → ∀ document, _ → ∃ after, (ofUser s.store user).remoteDocuments key = some after ∧ _)
          unfold ofUser
          split <;> exact ⟨le_rfl, fun _ document cached => ⟨document, cached, unchanged document⟩⟩
      | _ => exact ⟨le_rfl, fun _ document cached => ⟨document, cached, unchanged document⟩⟩
  | some occurrence =>
      cases occurrence with
      | written ticket mutations =>
          simp only [happened] at changes
          obtain ⟨⟨nonempty, same⟩, -⟩ := changes
          rw [same.store]
          exact ⟨le_rfl, fun _ document cached => ⟨document, cached, unchanged document⟩⟩
      | committed mutations response =>
          simp only [happened] at changes
          rw [changes.1.store]
          exact ⟨le_rfl, fun _ document cached => ⟨document, cached, unchanged document⟩⟩
      | acknowledged response =>
          simp only [happened] at changes
          obtain ⟨batch, rest, settles, sized, acknowledged, -⟩ := changes
          refine ⟨le_of_eq settles.removed.lastRemoteSnapshotVersion.symm, fun _ document cached => ?_⟩
          obtain ⟨t', acknowledged', -, cache⟩ := LocalStore.acknowledgeBatch_head
            resting.numbered ⟨batch, response.commitVersion, response.mutationResults⟩
            settles.head sized
          obtain rfl := Except.ok.inj (acknowledged.symm.trans acknowledged')
          rw [cache, cached]
          split
          · rename_i affected
            exact acknowledged_follows _ sized affected document
          · exact ⟨document, rfl, unchanged document⟩
      | rejected code =>
          simp only [happened] at changes
          obtain ⟨⟨batch, rest, settles⟩, cache, -⟩ := changes
          rw [cache]
          exact ⟨le_of_eq settles.removed.lastRemoteSnapshotVersion.symm,
            fun _ document cached => ⟨document, cached, unchanged document⟩⟩
      | relaunched user =>
          simp only [happened] at changes
          rw [changes.1]
          exact ⟨le_rfl, fun _ document cached => ⟨document, cached, unchanged document⟩⟩

/-- The backend's own document comes after the answer to the write. -/
def synced : List Action :=
  [.streamRead, .remoteEvent
    { snapshotVersion := 9
      documentUpdates := [(["pets", "rex"],
        .document [("breakfast", .primitive (.boolean true))] 6 .synced)]
      distinct := by decide }]

end DogFoodTracker.Core
