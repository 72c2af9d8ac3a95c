import DogFoodTracker.Core.Journal
import DogFoodTracker.Core.LocalView

/-! # What the client guarantees

Along every run from a new installation: over networks that come and go, users that sign
in and out, processes that end and start again, and a backend that may break the stream at
any time.
-/

namespace DogFoodTracker.Core

open Transition FirestoreClient

variable {user : User} {actions : List Action} {s t : FirestoreClient}

/-- The journal of each user at the end of a run. -/
def journal (user : User) (actions : List Action) : Past :=
  recorded System.step record Past.blank (System.installed user) actions

theorem journal_sound (run : Runs System.step (System.installed user) actions (.ok s)) :
    Sound (journal user actions) s :=
  (sound_always run).last run s rfl

/-- A pet is added and fed; the second write is still on its way. -/
def feeding : List Action :=
  [.write 1 [.set ["pets", "rex"] [("breakfast", .primitive (.boolean false))] .none],
    .streamStart, .serve ⟨0, []⟩, .streamRead,
    .write 2 [.patch ["pets", "rex"] [("breakfast", .primitive (.boolean true))] [["breakfast"]]
      (.exists true)],
    .serve ⟨5, [5]⟩, .streamRead, .serve ⟨6, [6]⟩]

/-- The pipeline is the front of the current user's queue, there is a stream for it, and
    what is asked and answered on the stream is about its batches in order. -/
theorem pipeline_front (run : Runs System.step (System.installed user) actions (.ok s)) :
    s.writePipeline =
        (if s.isNetworkEnabled then s.store.queue.take kMaxPendingWrites else []) ∧
      (s.isNetworkEnabled = true → s.store.queue ≠ [] → s.isStarted = true) ∧
      (s.isNetworkEnabled = false → s.isStarted = false) ∧
      (s.stream.handshakeComplete = true → s.isOpen = true ∧ Correlated s.writePipeline s.call) := by
  have resting := (journal_sound run).resting
  refine ⟨?_, resting.started, fun disabled => (resting.off disabled).2,
    fun shaken => ⟨resting.shaken shaken, resting.correlated (resting.shaken shaken) shaken⟩⟩
  split
  · rename_i enabled
    exact resting.full enabled
  · rename_i disabled
    exact (resting.off (by simpa using disabled)).1

theorem pipeline_front_feeding : ∃ s,
    replay System.step (System.installed "ann") feeding = some (.ok s) ∧
    (s.writePipeline =
        (if s.isNetworkEnabled then s.store.queue.take kMaxPendingWrites else []) ∧
      (s.isNetworkEnabled = true → s.store.queue ≠ [] → s.isStarted = true) ∧
      (s.isNetworkEnabled = false → s.isStarted = false) ∧
      (s.stream.handshakeComplete = true → s.isOpen = true ∧ Correlated s.writePipeline s.call)) :=
  ⟨_, rfl, pipeline_front
    (show Runs System.step (System.installed "ann") feeding _ from Runs.of_replay rfl)⟩

/-- Each user's queue is what the user has written and has no outcome for, in order. The
    completions of a process are called in order, once each and with the outcome of their
    own write, and those of the pending writes wait. -/
theorem writes_accounted (run : Runs System.step (System.installed user) actions (.ok s))
    (writer : User) :
    let j := journal user actions writer
    j.outcomes.length ≤ j.writes.length ∧
      s.store.mutations.queue writer = (j.writes.drop j.outcomes.length).map Write.batch ∧
      s.told writer = (j.writes.zip j.outcomes).filterMap (fun (write, outcome) =>
        write.completion.map (·, outcome.status)) ∧
      ∀ batchId ticket, s.mutationCallbacks writer batchId = some ticket ↔
        ∃ write ∈ j.writes.drop j.outcomes.length,
          write.batch.batchId = batchId ∧ write.completion = some ticket := by
  intro j
  have sound := journal_sound run
  have fits := sound.accounted writer
  exact ⟨fits.settled, fits.queue, fits.told,
    fun batchId ticket => fits.callback_iff (sound.resting.numbered.queue writer)⟩

theorem writes_accounted_feeding : ∃ s,
    replay System.step (System.installed "ann") feeding = some (.ok s) ∧
    let j := journal "ann" feeding "ann"
    j.outcomes.length ≤ j.writes.length ∧
      s.store.mutations.queue "ann" = (j.writes.drop j.outcomes.length).map Write.batch ∧
      s.told "ann" = (j.writes.zip j.outcomes).filterMap (fun (write, outcome) =>
        write.completion.map (·, outcome.status)) ∧
      ∀ batchId ticket, s.mutationCallbacks "ann" batchId = some ticket ↔
        ∃ write ∈ j.writes.drop j.outcomes.length,
          write.batch.batchId = batchId ∧ write.completion = some ticket :=
  ⟨_, rfl, writes_accounted
    (show Runs System.step (System.installed "ann") feeding _ from Runs.of_replay rfl) "ann"⟩

end DogFoodTracker.Core
