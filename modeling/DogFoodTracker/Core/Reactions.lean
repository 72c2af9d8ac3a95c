import DogFoodTracker.Core.Client

/-! # What one event does to the client

Every event finds the client at rest and leaves it at rest. What it means for the writes
is one of four things, and nothing if it is none of them. Only a stream that ends without
an error while batches wait, and an impossible change of the backend's, end the process.
-/

namespace DogFoodTracker.Core

namespace FirestoreClient

variable {s : FirestoreClient}

/-! ## Writes -/

/-- The client with a new batch, before it looks at its pipeline. -/
def enqueued (s : FirestoreClient) (mutations : List Mutation) (nonempty : mutations ≠ [])
    (ticket : Ticket) : FirestoreClient :=
  let (batch, store) := s.store.writeLocally mutations nonempty
  let callbacks := s.mutationCallbacks s.store.user
  { s with
    store
    mutationCallbacks := Function.update s.mutationCallbacks s.store.user
      (Function.update callbacks batch.batchId ((callbacks batch.batchId).or (some ticket))) }

theorem writeLocally_spec (resting : s.Resting) (mutations : List Mutation)
    (nonempty : mutations ≠ []) (ticket : Ticket) :
    ∃ t, s.writeLocally mutations nonempty ticket = .ok t ∧ t.Resting ∧
      SameLocal (s.enqueued mutations nonempty ticket) t ∧ t.answers = s.answers := by
  let queued := s.enqueued mutations nonempty ticket
  have appended : queued.store.queue = s.store.queue ++
      [(s.store.writeLocally mutations nonempty).1] := by
    change Mutations.queue (s.store.mutations.addMutationBatch s.store.user _) s.store.user = _
    rw [Mutations.queue_addMutationBatch, if_pos rfl]
    rfl
  have consistent : queued.Consistent :=
    { numbered := resting.numbered.add s.store.user _ rfl
      oldest := by
        rw [appended]
        exact resting.oldest.trans (List.prefix_append _ _)
      short := resting.short
      greeting := resting.greeting
      correlated := resting.correlated
      quiet := resting.quiet
      idle := resting.idle
      waiting := resting.waiting }
  change ∃ t, queued.fillWritePipeline = .ok t ∧ _
  by_cases enabled : s.isNetworkEnabled = true
  · obtain ⟨t, filled, kept, front, same, running, isOpen, shaken⟩ :=
      fillWritePipeline_spec consistent enabled
    refine ⟨t, filled, ?_, same.toSameLocal, ?_⟩
    · exact
        { kept with
          full := fun _ => by rw [same.store]; exact front
          off := fun disabled => by
            cases (same.isNetworkEnabled.trans enabled).symm.trans disabled
          running := running
          shaken := fun complete => by
            rw [isOpen]
            exact resting.shaken (shaken.symm.trans complete) }
    · rw [answers, answers, shaken, same.responses]
      rfl
  · have disabled : s.isNetworkEnabled = false := by simpa using enabled
    refine ⟨queued, fillWritePipeline_disabled disabled, ?_, .refl _, rfl⟩
    exact
      { consistent with
        full := fun enabled' => absurd enabled' enabled
        off := resting.off
        running := resting.running
        shaken := resting.shaken }

/-! ## The stream -/

theorem onStreamStart_spec (resting : s.Resting) (starting : s.stream.state = .starting) :
    ∃ t, s.onStreamStart = .ok t ∧ t.Resting ∧ SameLocal s t ∧ t.answers = [] ∧
      t.isOpen = true := by
  have unopened : s.isOpen = false := by simp [isOpen, starting]
  have started : s.isStarted = true := by simp [isStarted, starting]
  have unshaken := resting.unshaken unopened
  have enabled := resting.enabled started
  have nonempty := resting.waiting started (by rw [unopened, Bool.false_and])
  let greeted : FirestoreClient :=
    { s with
      stream := ⟨.opened, s.stream.handshakeComplete, false⟩
      call := { s.call with requests := s.call.requests ++ [.handshake] } }
  refine ⟨greeted, ?_, ?_, ⟨rfl, rfl, rfl⟩,
    by simp [answers, greeted, unshaken], rfl⟩
  · simp [onStreamStart, writeHandshake, write, withState, isOpen, hardAssert, unshaken, greeted,
      bind, Except.bind, pure, Except.pure]
  have unshaken' : greeted.stream.handshakeComplete = false := unshaken
  exact
    { numbered := resting.numbered
      oldest := resting.oldest
      short := resting.short
      greeting := fun _ _ => by
        left
        simp [greeted, resting.quiet unopened, Call.quiet]
      correlated := fun _ shaken => absurd (unshaken'.symm.trans shaken) Bool.false_ne_true
      quiet := fun closed => by cases closed
      idle := fun timer => by cases timer
      waiting := fun _ _ => nonempty
      full := resting.full
      off := fun disabled => absurd (enabled.symm.trans disabled) (by simp)
      running := by simp [shouldStartWriteStream, isStarted, isOpen, greeted]
      shaken := fun shaken => absurd (unshaken'.symm.trans shaken) Bool.false_ne_true }

/-- Answers only arrive on an open stream. -/
theorem Resting.arrived_opened (resting : s.Resting) {response : Response}
    {responses : List Response} (arrived : s.call.responses = response :: responses) :
    s.isOpen = true := by
  by_contra unopened
  rw [resting.quiet (by simpa using unopened)] at arrived
  cases arrived

/-- After the handshake the whole pipeline is written. -/
theorem foldlM_writeMutations (batches : List MutationBatch) (opened : s.isOpen = true)
    (shaken : s.stream.handshakeComplete = true) (untimed : s.stream.idlenessTimer = false) :
    batches.foldlM writeMutations s = .ok { s with
      call := { s.call with
        requests := s.call.requests ++ batches.map fun batch => .write batch.mutations } } := by
  induction batches generalizing s with
  | nil => simp [pure, Except.pure]
  | cons batch rest ih =>
      let asked : FirestoreClient :=
        { s with call := { s.call with requests := s.call.requests ++ [.write batch.mutations] } }
      have untouched : ({ s.stream with idlenessTimer := false } : WriteStream) = s.stream := by
        rw [← untimed]
      have written : s.writeMutations batch = .ok asked := by
        simp only [writeMutations, write, opened, if_pos shaken, hardAssert, if_true, bind,
          Except.bind, untouched]
        rfl
      rw [List.foldlM_cons, written]
      simp only [bind, Except.bind]
      rw [ih (s := asked) opened shaken untimed]
      simp only [asked, List.map_cons, List.append_assoc, List.singleton_append]

theorem onStreamRead_handshake (resting : s.Resting)
    (unshaken : s.stream.handshakeComplete = false) {response : Response}
    {responses : List Response} (arrived : s.call.responses = response :: responses) :
    ∃ t, onStreamRead { s with call := { s.call with responses } } response = .ok t ∧ t.Resting ∧
      SameLocal s t ∧ t.answers = [] ∧ t.stream.handshakeComplete = true := by
  have opened := resting.arrived_opened arrived
  have started := isOpen_started opened
  have enabled := resting.enabled started
  have nonempty := resting.waiting started (by rw [unshaken, Bool.and_false])
  have greeted : s.call.requests = [] ∧ responses = [] := by
    rcases resting.greeting opened unshaken with ⟨-, none⟩ | ⟨requests, one⟩
    · rw [arrived] at none
      cases none
    · rw [arrived] at one
      exact ⟨requests, List.length_eq_zero_iff.mp (Nat.succ.inj one)⟩
  have untimed : s.stream.idlenessTimer = false := by
    by_contra timer
    have shaken := (resting.idle (by simpa using timer)).2.1
    rw [unshaken] at shaken
    cases shaken
  let shook : FirestoreClient :=
    { s with
      call := { s.call with responses }
      stream := { s.stream with handshakeComplete := true } }
  let talking : FirestoreClient :=
    { shook with
      call := { shook.call with
        requests := s.call.requests ++ s.writePipeline.map fun batch => .write batch.mutations } }
  refine ⟨talking, ?_, ?_, ⟨rfl, rfl, rfl⟩, ?_, rfl⟩
  · have begun : isStarted { s with call := { s.call with responses } } = true := started
    simp only [onStreamRead, begun, hardAssert, if_true, bind, Except.bind]
    change (if s.stream.handshakeComplete = true then _ else _) = _
    rw [if_neg (by simp [unshaken])]
    exact foldlM_writeMutations (s := shook) s.writePipeline opened rfl untimed
  · exact
      { numbered := resting.numbered
        oldest := resting.oldest
        short := resting.short
        greeting := fun _ unshaken => by cases unshaken
        correlated := fun _ _ => by
          refine ⟨[], s.writePipeline, rfl, ?_, ?_⟩
          · rw [show talking.call.responses = [] from greeted.2]
            exact .nil
          · change s.call.requests ++ _ = _
            rw [greeted.1, List.nil_append]
        quiet := fun closed => absurd (opened.symm.trans closed) (by simp)
        idle := fun timer => absurd (untimed.symm.trans timer) Bool.false_ne_true
        waiting := fun _ _ => nonempty
        full := resting.full
        off := fun disabled => absurd (enabled.symm.trans disabled) (by simp)
        running := resting.running
        shaken := fun _ => opened }
  · change responses = []
    exact greeted.2

theorem onBackoffElapsed_spec (resting : s.Resting) (backoff : s.stream.state = .backoff) :
    ∃ t, s.onBackoffElapsed = .ok t ∧ t.Resting ∧ SameLocal s t ∧ t.answers = s.answers ∧
      t.stream.state = .starting := by
  have unopened : s.isOpen = false := by simp [isOpen, backoff]
  have started : s.isStarted = true := by simp [isStarted, backoff]
  have enabled := resting.enabled started
  have nonempty := resting.waiting started (by rw [unopened, Bool.false_and])
  refine ⟨s.withState .starting, ?_, ?_, ⟨rfl, rfl, rfl⟩, rfl, rfl⟩
  · simp [onBackoffElapsed, startStream, withState, isStarted, isOpen, hardAssert, backoff, bind,
      Except.bind, pure, Except.pure]
  · exact
      { numbered := resting.numbered
        oldest := resting.oldest
        short := resting.short
        greeting := fun opened => by cases opened
        correlated := fun opened => by cases opened
        quiet := fun _ => resting.quiet unopened
        idle := fun timer => absurd ((resting.untimed unopened).symm.trans timer) Bool.false_ne_true
        waiting := fun _ _ => nonempty
        full := resting.full
        off := fun disabled => absurd (enabled.symm.trans disabled) (by simp)
        running := by simp [shouldStartWriteStream, isStarted, withState]
        shaken := fun shaken =>
          absurd ((resting.unshaken unopened).symm.trans shaken) Bool.false_ne_true }

/-! ## The backend -/

/-- The oldest request without an answer is the one to the batch after those that have
    answers. -/
theorem Resting.next_request (resting : s.Resting) {mutations : List Mutation}
    {requests : List Request} (asked : s.call.requests = .write mutations :: requests) :
    s.stream.handshakeComplete = true ∧ s.answers.length < kMaxPendingWrites ∧
      ∃ batch, s.store.queue[s.answers.length]? = some batch ∧ batch.mutations = mutations := by
  have opened : s.isOpen = true := by
    by_contra unopened
    rw [resting.quiet (by simpa using unopened)] at asked
    cases asked
  have shaken : s.stream.handshakeComplete = true := by
    by_contra unshaken
    rcases resting.greeting opened (by simpa using unshaken) with ⟨greeting, -⟩ | ⟨silent, -⟩
    · rw [asked] at greeting
      cases greeting
    · rw [asked] at silent
      cases silent
  obtain ⟨answered, pending, parts, sizes, written⟩ := resting.correlated opened shaken
  cases pending with
  | nil =>
      rw [asked] at written
      cases written
  | cons batch pending =>
      rw [asked, List.map_cons, List.cons.injEq] at written
      obtain ⟨later, queue⟩ := resting.oldest
      have short := resting.short
      rw [parts, List.length_append, List.length_cons] at short
      refine ⟨shaken, ?_, batch, ?_, ?_⟩
      · rw [answers, if_pos shaken, ← sizes.length_eq]
        omega
      · rw [answers, if_pos shaken, ← sizes.length_eq, ← queue, parts, List.append_assoc]
        simp
      · exact (Request.write.inj written.1).symm

theorem Resting.handshake_request (resting : s.Resting) {requests : List Request}
    (asked : s.call.requests = .handshake :: requests) : s.stream.handshakeComplete = false := by
  by_contra shaken
  have shaken' : s.stream.handshakeComplete = true := by simpa using shaken
  obtain ⟨answered, pending, -, -, written⟩ := resting.correlated (resting.shaken shaken') shaken'
  rw [asked] at written
  cases pending with
  | nil => cases written
  | cons batch pending =>
      rw [List.map_cons, List.cons.injEq] at written
      cases written.1

theorem serve_spec (resting : s.Resting) {request : Request} {requests : List Request}
    (asked : s.call.requests = request :: requests) {response : Response}
    (answered : request.answeredBy response = true) :
    Resting { s with call := ⟨requests, s.call.responses ++ [response]⟩ } := by
  have opened : s.isOpen = true := by
    by_contra unopened
    rw [resting.quiet (by simpa using unopened)] at asked
    cases asked
  exact
    { numbered := resting.numbered
      oldest := resting.oldest
      short := resting.short
      greeting := fun _ unshaken => by
        right
        rcases resting.greeting opened unshaken with ⟨greeting, silent⟩ | ⟨none, -⟩
        · rw [asked, List.cons.injEq] at greeting
          exact ⟨greeting.2, by rw [silent]; rfl⟩
        · rw [asked] at none
          cases none
      correlated := fun _ shaken => by
        obtain ⟨before, pending, parts, sizes, written⟩ := resting.correlated opened shaken
        cases pending with
        | nil =>
            rw [asked] at written
            cases written
        | cons batch pending =>
            rw [asked, List.map_cons, List.cons.injEq] at written
            refine ⟨before ++ [batch], pending, ?_, ?_, written.2⟩
            · rw [parts, List.append_assoc, List.singleton_append]
            · refine List.rel_append sizes (.cons ?_ .nil)
              rw [written.1] at answered
              simpa [Request.answeredBy] using answered
      quiet := fun closed => absurd (opened.symm.trans closed) (by simp)
      idle := resting.idle
      waiting := resting.waiting
      full := resting.full
      off := resting.off
      running := resting.running
      shaken := resting.shaken }

/-- What the backend says of documents is nothing to the pipeline. -/
theorem Resting.cached (resting : s.Resting) {store : LocalStore}
    (user : store.user = s.store.user) (mutations : store.mutations = s.store.mutations)
    (nextBatchId : store.nextBatchId = s.store.nextBatchId) : (s.withStore store).Resting := by
  have queue : store.queue = s.store.queue := by
    rw [LocalStore.queue, LocalStore.queue, user, mutations]
  exact
    { numbered := by
        change store.mutations.Numbered store.nextBatchId
        rw [mutations, nextBatchId]
        exact resting.numbered
      oldest := by
        change s.writePipeline <+: store.queue
        rw [queue]
        exact resting.oldest
      short := resting.short
      greeting := resting.greeting
      correlated := resting.correlated
      quiet := resting.quiet
      idle := resting.idle
      waiting := resting.waiting
      full := fun enabled => by
        change s.writePipeline = store.queue.take kMaxPendingWrites
        rw [queue]
        exact resting.full enabled
      off := resting.off
      running := resting.running
      shaken := resting.shaken }

/-! ## What an event means -/

end FirestoreClient

/-- What can happen to the writes of the current user. -/
inductive Occurrence where
  | written (ticket : Ticket) (mutations : List Mutation)
  /-- The backend has committed a write, and the answer is on its way. -/
  | committed (mutations : List Mutation) (response : Response)
  | acknowledged (response : Response)
  | rejected (code : ErrorCode)
  /-- The process has ended, and with it the completions that have not been called. -/
  | relaunched (user : User)

namespace FirestoreClient

variable {s : FirestoreClient}

def occurrence (s : FirestoreClient) : Action → Option Occurrence
  | .write ticket mutations => some (.written ticket mutations)
  | .serve response =>
      match s.call.requests with
      | .write mutations :: _ => some (.committed mutations response)
      | _ => none
  | .streamRead => s.answers.head?.map .acknowledged
  | .streamFinish (.error code) => if s.rejects (.error code) then some (.rejected code) else none
  | .relaunch user => some (.relaunched user)
  | _ => none

/-- The local store after an event that is nothing to the writes. -/
def storeAfter (s : FirestoreClient) : Action → LocalStore
  | .credentialChange user => ofUser s.store user
  | .remoteEvent event => s.store.afterEvent event
  | .collectGarbage key =>
      { s.store with remoteDocuments := Function.update s.store.remoteDocuments key none }
  | _ => s.store

/-- All that an event can have changed of the client's own, and of the answers under way. -/
def Changes (s : FirestoreClient) (a : Action) (t : FirestoreClient) : Prop :=
  match s.occurrence a with
  | some (.written ticket mutations) =>
      (∃ nonempty, SameLocal (s.enqueued mutations nonempty ticket) t) ∧ t.answers = s.answers
  | some (.committed mutations response) =>
      SameLocal s t ∧ t.answers = s.answers ++ [response] ∧
        response.mutationResults.length = mutations.length ∧
        s.answers.length < kMaxPendingWrites ∧
        ∃ batch, s.store.queue[s.answers.length]? = some batch ∧ batch.mutations = mutations
  | some (.acknowledged response) =>
      ∃ batch rest, Settles s t batch rest .ok ∧
        response.mutationResults.length = batch.mutations.length ∧
        s.store.acknowledgeBatch ⟨batch, response.commitVersion, response.mutationResults⟩ =
          .ok t.store ∧ s.answers = response :: t.answers
  | some (.rejected code) =>
      (∃ batch rest, Settles s t batch rest (.error code)) ∧
        t.store.remoteDocuments = s.store.remoteDocuments ∧ t.answers = []
  | some (.relaunched user) =>
      t.store = LocalStore.start { s.store with user } ∧
        t.mutationCallbacks = (fun _ _ => none) ∧ t.told = (fun _ => []) ∧ t.answers = []
  | none =>
      SameLocal (s.withStore (s.storeAfter a)) t ∧
        (t.answers = [] ∨ t.answers = s.answers ∧ t.store.user = s.store.user)

/-- The events that end the process. -/
def ends (s : FirestoreClient) : Action → Bool
  | .streamFinish .ok => !s.writePipeline.isEmpty
  | .remoteEvent event => !s.store.accepts event
  | _ => false

theorem quiet_changes {a : Action} {t : FirestoreClient} (nothing : s.occurrence a = none)
    (same : SameLocal s t) (store : s.storeAfter a = s.store)
    (answers : t.answers = [] ∨ t.answers = s.answers) : s.Changes a t := by
  simp only [Changes, nothing]
  refine ⟨?_, answers.imp_right fun same' => ⟨same', by rw [same.store]⟩⟩
  exact ⟨same.store.trans store.symm, same.mutationCallbacks, same.told⟩

/-- An error that comes before the handshake is not blamed on a batch. -/
theorem rejects_unshaken (unshaken : s.stream.handshakeComplete = false) (status : Status) :
    s.rejects status = false := by
  cases status with
  | ok => rfl
  | error code => simp [rejects, unshaken]

theorem streamRead_spec (resting : s.Resting) {response : Response} {responses : List Response}
    (arrived : s.call.responses = response :: responses) :
    ∃ t, onStreamRead { s with call := { s.call with responses } } response = .ok t ∧ t.Resting ∧
      s.Changes .streamRead t := by
  by_cases shaken : s.stream.handshakeComplete = true
  · have opened := resting.arrived_opened arrived
    have awaited : s.answers = response :: responses := by rw [answers, if_pos shaken, arrived]
    obtain ⟨batch, rest, t, sized, answered, rests, settles, acknowledged, left, complete⟩ :=
      onWriteStreamMutationResult_spec resting opened shaken arrived
    refine ⟨t, ?_, rests, ?_⟩
    · have begun : isStarted { s with call := { s.call with responses } } = true :=
        isOpen_started opened
      simp only [onStreamRead, begun, hardAssert, if_true, bind, Except.bind]
      rw [← answered]
      exact if_pos shaken
    · simp only [Changes, occurrence, awaited, List.head?_cons, Option.map_some]
      refine ⟨batch, rest, settles, sized, acknowledged, ?_⟩
      rw [answers, if_pos complete, left]
  · have unshaken : s.stream.handshakeComplete = false := by simpa using shaken
    obtain ⟨t, answered, rests, same, silent, -⟩ := onStreamRead_handshake resting unshaken arrived
    refine ⟨t, answered, rests, quiet_changes ?_ same rfl (.inl silent)⟩
    simp [occurrence, answers, unshaken]

theorem streamFinish_spec (resting : s.Resting) (opened : s.isOpen = true) (status : Status) :
    if s.ends (.streamFinish status) then ∃ message, s.close status = .error message
    else ∃ t, s.close status = .ok t ∧ t.Resting ∧ s.Changes (.streamFinish status) t := by
  have started := isOpen_started opened
  cases status with
  | ok =>
      have closes := close_ok_spec resting started
      by_cases empty : s.writePipeline = []
      · rw [if_pos empty] at closes
        obtain ⟨t, closed, rests, unopened, same⟩ := closes
        rw [if_neg (by simp [ends, empty])]
        exact ⟨t, closed, rests,
          quiet_changes rfl same rfl (.inl (rests.answers_unopened unopened))⟩
      · rw [if_neg empty] at closes
        rw [if_pos (by simpa [ends] using empty)]
        exact ⟨_, closes⟩
  | error code =>
      obtain ⟨t, closed, rests, unopened, outcome⟩ := close_error_spec resting started code
      have silent := rests.answers_unopened unopened
      refine ⟨t, closed, rests, ?_⟩
      rcases outcome with ⟨faulty, cache, settles⟩ | ⟨faultless, same⟩
      · simp only [Changes, occurrence, if_pos faulty]
        exact ⟨settles, cache, silent⟩
      · refine quiet_changes ?_ same rfl (.inl silent)
        simp [occurrence, faultless]

/-- What any event does: it ends the process, or it leaves the client at rest and changes
    what it is to change. -/
theorem react_spec (resting : s.Resting) {a : Action} {r : Except String FirestoreClient}
    (reacted : s.react a = some r) :
    if s.ends a then ∃ message, r = .error message
    else ∃ t, r = .ok t ∧ t.Resting ∧ s.Changes a t := by
  cases a with
  | write ticket mutations =>
      simp only [react] at reacted
      split at reacted
      · rename_i nonempty
        obtain rfl := Option.some.inj reacted
        obtain ⟨t, written, rests, same, answers⟩ := writeLocally_spec resting mutations nonempty ticket
        exact ⟨t, written, rests, ⟨nonempty, same⟩, answers⟩
      · cases reacted
  | enableNetwork =>
      obtain rfl := Option.some.inj reacted
      obtain ⟨t, enabled, rests, -, same, -, answers⟩ := enableNetwork_spec resting
      exact ⟨t, enabled, rests, quiet_changes rfl same rfl (.inr answers)⟩
  | disableNetwork =>
      obtain rfl := Option.some.inj reacted
      obtain ⟨t, disabled, down, same⟩ := disableNetwork_spec resting s.store
      have rests : t.Resting := down.resting (by rw [same.store]; exact resting.numbered)
      exact ⟨t, disabled, rests, quiet_changes rfl same rfl
        (.inl (rests.answers_unopened (not_open_of_stopped down.stopped)))⟩
  | connectivityChange =>
      obtain rfl := Option.some.inj reacted
      by_cases enabled : s.isNetworkEnabled = true
      · rw [if_pos enabled]
        obtain ⟨t, restarted, rests, -, same, unopened⟩ :=
          restartNetwork_spec resting s.store resting.numbered
        exact ⟨t, restarted, rests,
          quiet_changes rfl same rfl (.inl (rests.answers_unopened unopened))⟩
      · rw [if_neg enabled]
        exact ⟨s, rfl, resting, quiet_changes rfl (.refl s) rfl (.inr rfl)⟩
  | credentialChange user =>
      obtain rfl := Option.some.inj reacted
      obtain ⟨t, changed, rests, same, unopened⟩ := handleCredentialChange_spec resting user
      exact ⟨t, changed, rests, same, .inl (rests.answers_unopened unopened)⟩
  | relaunch user =>
      obtain rfl := Option.some.inj reacted
      obtain ⟨t, launched, rests, -, store, callbacks, told, unopened⟩ :=
        launch_spec user s.store resting.numbered
      exact ⟨t, launched, rests, store, callbacks, told, rests.answers_unopened unopened⟩
  | streamStart =>
      simp only [react] at reacted
      split at reacted
      · rename_i starting
        obtain rfl := Option.some.inj reacted
        obtain ⟨t, started, rests, same, silent, -⟩ := onStreamStart_spec resting starting
        exact ⟨t, started, rests, quiet_changes rfl same rfl (.inl silent)⟩
      · cases reacted
  | authFailed code =>
      simp only [react] at reacted
      split at reacted
      · rename_i starting
        obtain rfl := Option.some.inj reacted
        have unshaken := resting.unshaken (by simp [isOpen, starting])
        obtain ⟨t, closed, rests, unopened, outcome⟩ :=
          close_error_spec resting (by simp [isStarted, starting]) code
        rcases outcome with ⟨faulty, -⟩ | ⟨-, same⟩
        · rw [rejects_unshaken unshaken] at faulty
          cases faulty
        · exact ⟨t, closed, rests,
            quiet_changes rfl same rfl (.inl (rests.answers_unopened unopened))⟩
      · cases reacted
  | streamRead =>
      simp only [react] at reacted
      split at reacted
      · cases reacted
      · rename_i response responses arrived
        obtain rfl := Option.some.inj reacted
        exact streamRead_spec resting arrived
  | streamFinish status =>
      simp only [react] at reacted
      split at reacted
      · rename_i opened
        obtain rfl := Option.some.inj reacted
        exact streamFinish_spec resting opened status
      · cases reacted
  | backoffElapsed =>
      simp only [react] at reacted
      split at reacted
      · rename_i backoff
        obtain rfl := Option.some.inj reacted
        obtain ⟨t, elapsed, rests, same, answers, -⟩ := onBackoffElapsed_spec resting backoff
        exact ⟨t, elapsed, rests, quiet_changes rfl same rfl (.inr answers)⟩
      · cases reacted
  | idleTimeout =>
      simp only [react] at reacted
      split at reacted
      · rename_i timer
        obtain rfl := Option.some.inj reacted
        obtain ⟨opened, -, empty⟩ := resting.idle timer
        have closes := close_ok_spec resting (isOpen_started opened)
        rw [if_pos empty] at closes
        obtain ⟨t, closed, rests, unopened, same⟩ := closes
        exact ⟨t, closed, rests,
          quiet_changes rfl same rfl (.inl (rests.answers_unopened unopened))⟩
      · cases reacted
  | serve response =>
      simp only [react] at reacted
      split at reacted
      · cases reacted
      · rename_i request requests asked
        split at reacted
        · rename_i answered
          obtain rfl := Option.some.inj reacted
          refine ⟨_, rfl, serve_spec resting asked answered, ?_⟩
          cases request with
          | handshake =>
              refine quiet_changes (by simp [occurrence, asked]) ⟨rfl, rfl, rfl⟩ rfl ?_
              left
              simp [answers, resting.handshake_request asked]
          | write mutations =>
              obtain ⟨shaken, few, next⟩ := resting.next_request asked
              simp only [Changes, occurrence, asked]
              refine ⟨⟨rfl, rfl, rfl⟩, ?_, by simpa [Request.answeredBy] using answered, few, next⟩
              simp only [answers, if_pos shaken]
        · cases reacted
  | remoteEvent event =>
      obtain rfl := Option.some.inj reacted
      have applied := LocalStore.applyRemoteEvent_spec s.store event
      by_cases accepted : s.store.accepts event = true
      · rw [if_pos accepted] at applied
        rw [if_neg (by simp [ends, accepted]), applied]
        exact ⟨s.withStore (s.store.afterEvent event), rfl, resting.cached rfl rfl rfl,
          .refl _, .inr ⟨rfl, rfl⟩⟩
      · rw [if_neg accepted] at applied
        obtain ⟨message, failed⟩ := applied
        rw [if_pos (by simpa [ends] using accepted), failed]
        exact ⟨message, rfl⟩
  | collectGarbage key =>
      simp only [react] at reacted
      split at reacted
      · cases reacted
      · obtain rfl := Option.some.inj reacted
        exact ⟨_, rfl, resting.cached rfl rfl rfl, .refl _, .inr ⟨rfl, rfl⟩⟩

/-- What an event does that does not end the process. -/
theorem step_spec (resting : s.Resting) {a : Action} {t : FirestoreClient}
    (taken : System.step (.ok s) a = some (.ok t)) : t.Resting ∧ s.Changes a t := by
  have outcome := react_spec resting taken
  split at outcome
  · obtain ⟨message, failed⟩ := outcome
    cases failed
  · obtain ⟨u, reached, rests, changes⟩ := outcome
    obtain rfl : t = u := Except.ok.inj reached
    exact ⟨rests, changes⟩

theorem not_ends (resting : s.Resting) {a : Action} {t : FirestoreClient}
    (taken : System.step (.ok s) a = some (.ok t)) : s.ends a = false := by
  by_contra ended
  have outcome := react_spec resting (show s.react a = some (.ok t) from taken)
  rw [if_pos (by simpa using ended)] at outcome
  obtain ⟨message, failed⟩ := outcome
  cases failed

theorem occurrence_written {a : Action} {ticket : Ticket} {mutations : List Mutation}
    (happened : s.occurrence a = some (.written ticket mutations)) :
    a = .write ticket mutations := by
  unfold occurrence at happened
  split at happened
  · obtain ⟨rfl, rfl⟩ := Occurrence.written.inj (Option.some.inj happened)
    rfl
  · split at happened <;> cases happened
  · obtain ⟨_, -, other⟩ := Option.map_eq_some_iff.mp happened
    cases other
  · split at happened <;> cases happened
  · cases happened
  · cases happened

end FirestoreClient

end DogFoodTracker.Core
