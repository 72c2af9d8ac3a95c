import DogFoodTracker.Core.Guarantees

/-! # The client never gets stuck

Wherever a run has led, a network and a backend that does its part are enough for every
pending write of the current user to be answered.
-/

namespace DogFoodTracker.Core

open Transition

/-- The stream comes up and the backend answers. -/
def Action.answering : Action → Bool
  | .streamStart | .streamRead | .backoffElapsed | .serve _ => true
  | _ => false

namespace FirestoreClient

variable {s t : FirestoreClient} {a : Action}

/-- The first batch of the queue can be answered. -/
def Answerable (s : FirestoreClient) : Prop :=
  ∃ later t, Runs System.step (.ok s) later (.ok t) ∧ (∀ a ∈ later, a.answering = true) ∧
    t.Resting ∧ t.isNetworkEnabled = true ∧ t.store.user = s.store.user ∧
    t.store.queue = s.store.queue.tail

theorem Answerable.before (answerable : t.Answerable) (taken : System.step (.ok s) a = some (.ok t))
    (same : SameLocal s t) (answering : a.answering = true) : s.Answerable := by
  obtain ⟨later, u, run, all, rests, enabled, user, queue⟩ := answerable
  refine ⟨a :: later, u, .next taken run, ?_, rests, enabled, ?_, ?_⟩
  · intro b member
    rcases List.mem_cons.mp member with rfl | member
    · exact answering
    · exact all b member
  · rw [user, same.store]
  · rw [queue, same.store]

theorem served {request : Request} {requests : List Request} {response : Response}
    (asked : s.call.requests = request :: requests) (answered : request.answeredBy response = true) :
    System.step (.ok s) (.serve response) =
      some (.ok { s with call := ⟨requests, s.call.responses ++ [response]⟩ }) := by
  change s.react (.serve response) = _
  simp only [react, asked, if_pos answered]

/-- From the last stage to the first: an answer has arrived. -/
theorem answerable_arrived (resting : s.Resting) (shaken : s.stream.handshakeComplete = true)
    (arrived : s.call.responses ≠ []) : s.Answerable := by
  obtain ⟨response, responses, arrived⟩ := List.exists_cons_of_ne_nil arrived
  obtain ⟨t, answered, rests, changes⟩ := streamRead_spec resting arrived
  have enabled := resting.enabled (isOpen_started (resting.shaken shaken))
  have taken : System.step (.ok s) .streamRead = some (.ok t) := by
    change s.react .streamRead = _
    simp only [react, arrived]
    rw [answered]
  simp only [Changes, occurrence, answers, if_pos shaken, arrived, List.head?_cons,
    Option.map_some] at changes
  obtain ⟨batch, rest, settles, -⟩ := changes
  refine ⟨[.streamRead], t, .single taken, by simp [Action.answering], rests,
    settles.isNetworkEnabled.trans enabled, settles.removed.user, ?_⟩
  rw [settles.removed.queue, settles.head, List.tail_cons]

/-- The handshake is complete and the batch has been written. -/
theorem answerable_shaken (resting : s.Resting) (shaken : s.stream.handshakeComplete = true)
    (waiting : s.store.queue ≠ []) : s.Answerable := by
  by_cases arrived : s.call.responses = []
  · have enabled := resting.enabled (isOpen_started (resting.shaken shaken))
    obtain ⟨answered, pending, parts, sizes, written⟩ :=
      resting.correlated (resting.shaken shaken) shaken
    rw [arrived] at sizes
    cases sizes
    obtain ⟨batch, rest, queue⟩ := List.exists_cons_of_ne_nil waiting
    have front := resting.full enabled
    rw [queue, kMaxPendingWrites, List.take_succ_cons, parts, List.nil_append] at front
    rw [front, List.map_cons] at written
    let response : Response := ⟨0, batch.mutations.map fun _ => 0⟩
    have fits : (Request.write batch.mutations).answeredBy response = true := by
      simp [Request.answeredBy, response]
    have rests := serve_spec resting written fits
    exact (answerable_arrived rests shaken (by simp)).before (served written fits)
      ⟨rfl, rfl, rfl⟩ rfl
  · exact answerable_arrived resting shaken arrived

/-- The stream is open and the handshake is under way. -/
theorem answerable_opened (resting : s.Resting) (opened : s.isOpen = true)
    (waiting : s.store.queue ≠ []) : s.Answerable := by
  by_cases shaken : s.stream.handshakeComplete = true
  · exact answerable_shaken resting shaken waiting
  have unshaken : s.stream.handshakeComplete = false := by simpa using shaken
  have read : ∀ s : FirestoreClient, s.Resting → s.stream.handshakeComplete = false →
      s.store.queue ≠ [] → s.call.responses ≠ [] → s.Answerable := by
    intro s resting unshaken waiting arrived
    obtain ⟨response, responses, arrived⟩ := List.exists_cons_of_ne_nil arrived
    obtain ⟨t, answered, rests, same, -, complete⟩ :=
      onStreamRead_handshake resting unshaken arrived
    have waiting' : t.store.queue ≠ [] := by
      rw [same.store]
      exact waiting
    apply (answerable_shaken rests complete waiting').before _ same (a := .streamRead) rfl
    change s.react .streamRead = _
    simp only [react, arrived]
    rw [answered]
  rcases resting.greeting opened unshaken with ⟨greeting, silent⟩ | ⟨-, one⟩
  · have rests := serve_spec resting greeting (show Request.handshake.answeredBy ⟨0, []⟩ = true from rfl)
    exact (read _ rests unshaken waiting (by simp)).before (served greeting rfl)
      ⟨rfl, rfl, rfl⟩ rfl
  · apply read s resting unshaken waiting
    intro none
    rw [none] at one
    cases one

theorem answerable_starting (resting : s.Resting) (starting : s.stream.state = .starting)
    (waiting : s.store.queue ≠ []) : s.Answerable := by
  obtain ⟨t, started, rests, same, -, opened⟩ := onStreamStart_spec resting starting
  have waiting' : t.store.queue ≠ [] := by
    rw [same.store]
    exact waiting
  apply (answerable_opened rests opened waiting').before _ same (a := .streamStart) rfl
  change s.react .streamStart = _
  simp only [react, if_pos starting, started]

theorem answerable (resting : s.Resting) (enabled : s.isNetworkEnabled = true)
    (waiting : s.store.queue ≠ []) : s.Answerable := by
  have started := resting.started enabled waiting
  cases state : s.stream.state with
  | initial => simp [isStarted, isOpen, state] at started
  | error => simp [isStarted, isOpen, state] at started
  | opened => exact answerable_opened resting (by simp [isOpen, state]) waiting
  | starting => exact answerable_starting resting state waiting
  | backoff =>
      obtain ⟨t, elapsed, rests, same, -, starting⟩ := onBackoffElapsed_spec resting state
      have waiting' : t.store.queue ≠ [] := by
        rw [same.store]
        exact waiting
      apply (answerable_starting rests starting waiting').before _ same (a := .backoffElapsed) rfl
      change s.react .backoffElapsed = _
      simp only [react, if_pos state, elapsed]

/-- One batch after the other, the queue is emptied. -/
theorem drained (resting : s.Resting) (enabled : s.isNetworkEnabled = true) :
    ∃ later t, Runs System.step (.ok s) later (.ok t) ∧ (∀ a ∈ later, a.answering = true) ∧
      t.store.user = s.store.user ∧ t.store.queue = [] := by
  generalize queue : s.store.queue = batches
  induction batches generalizing s with
  | nil => exact ⟨[], s, .done, by simp, rfl, queue⟩
  | cons batch rest ih =>
      obtain ⟨first, t, run, all, rests, enabled', user, queue'⟩ :=
        answerable resting enabled (by simp [queue])
      rw [queue, List.tail_cons] at queue'
      obtain ⟨later, u, run', all', user', empty⟩ := ih rests enabled' queue'
      refine ⟨first ++ later, u, run.append run', ?_, user'.trans user, empty⟩
      intro a member
      exact (List.mem_append.mp member).elim (all a) (all' a)

end FirestoreClient

/-- Wherever a run has led, all pending writes of the current user can still be answered. -/
theorem writes_answerable {user : User} {actions : List Action} {s : FirestoreClient}
    (run : Runs System.step (System.installed user) actions (.ok s)) :
    ∃ later t, Runs System.step (.ok s) (.enableNetwork :: later) (.ok t) ∧
      (∀ a ∈ later, a.answering = true) ∧ t.store.user = s.store.user ∧ t.store.queue = [] := by
  obtain ⟨u, enabled, rests, network, same, -⟩ :=
    FirestoreClient.enableNetwork_spec (journal_sound run).resting
  obtain ⟨later, t, run', all, user', empty⟩ := FirestoreClient.drained rests network
  refine ⟨later, t, .next ?_ run', all, user'.trans ?_, empty⟩
  · change s.react .enableNetwork = _
    simp only [FirestoreClient.react, enabled]
  · rw [same.store]

theorem writes_answerable_feeding : ∃ s,
    replay System.step (System.installed "ann") feeding = some (.ok s) ∧
    ∃ later t, Runs System.step (.ok s) (.enableNetwork :: later) (.ok t) ∧
      (∀ a ∈ later, a.answering = true) ∧ t.store.user = s.store.user ∧ t.store.queue = [] :=
  ⟨_, rfl, writes_answerable
    (show Runs System.step (System.installed "ann") feeding _ from Runs.of_replay rfl)⟩

end DogFoodTracker.Core
