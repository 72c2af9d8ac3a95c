import DogFoodTracker.Core.WritePipeline

/-! # How the write stream breaks and comes back

Closing the stream, for whatever reason, leaves the client at rest: either nothing is to
be sent, or the stream is on its way to be opened again with the front of the queue in the
pipeline. A permanent error costs the first batch of the queue and no other.
-/

namespace DogFoodTracker.Core.FirestoreClient

variable {s : FirestoreClient} {batch : MutationBatch} {rest : List MutationBatch}

/-! ## Errors -/

/-- The stream as it is when its callback is told that it has closed. -/
def closed (s : FirestoreClient) (status : Status) : FirestoreClient :=
  { s with
    stream := { s.stream with
      idlenessTimer := false
      state := if status = .ok then .initial else .error }
    call := Call.quiet }

theorem closed_state (s : FirestoreClient) (status : Status) :
    (s.closed status).stream.state = .initial ∨ (s.closed status).stream.state = .error := by
  simp only [closed]
  split <;> simp

theorem closed_stopped (s : FirestoreClient) (status : Status) :
    (s.closed status).isStarted = false :=
  (isStarted_eq _).mpr (closed_state s status)

theorem not_open_of_stopped (stopped : s.isStarted = false) : s.isOpen = false := by
  by_contra opened
  have := isOpen_started (Bool.not_eq_false _ ▸ opened)
  rw [stopped] at this
  cases this

theorem Consistent.closed (consistent : s.Consistent) (status : Status) :
    (s.closed status).Consistent where
  numbered := consistent.numbered
  oldest := consistent.oldest
  short := consistent.short
  greeting := fun opened => absurd
    ((not_open_of_stopped (closed_stopped s status)).symm.trans opened) Bool.false_ne_true
  correlated := fun opened => absurd
    ((not_open_of_stopped (closed_stopped s status)).symm.trans opened) Bool.false_ne_true
  quiet := fun _ => rfl
  idle := fun timer => absurd timer Bool.false_ne_true
  waiting := fun started => absurd ((closed_stopped s status).symm.trans started) Bool.false_ne_true

/-- A permanent error rejects the first batch of the queue. -/
theorem handleWriteError_spec (consistent : s.Consistent) (stopped : s.isStarted = false)
    (enabled : s.isNetworkEnabled = true) (nonempty : s.writePipeline ≠ []) {code : ErrorCode}
    (permanent : Datastore.isPermanentWriteError code = true) :
    ∃ batch rest t, s.handleWriteError code = .ok t ∧ t.Consistent ∧
      t.writePipeline = t.store.queue.take kMaxPendingWrites ∧
      t.shouldStartWriteStream = false ∧ t.isOpen = false ∧
      Settles s t batch rest (.error code) ∧ t.store.remoteDocuments = s.store.remoteDocuments := by
  obtain ⟨batch, pipeline, pipelined⟩ := List.exists_cons_of_ne_nil nonempty
  obtain ⟨rest, queue⟩ : ∃ rest, s.store.queue = batch :: rest := by
    obtain ⟨later, parts⟩ := consistent.oldest
    exact ⟨pipeline ++ later, by rw [← parts, pipelined, List.cons_append]⟩
  obtain ⟨store, rejected, removed, cache⟩ := LocalStore.rejectBatch_head consistent.numbered queue
  let calm : FirestoreClient := withState { s with writePipeline := pipeline } .initial
  let answered : FirestoreClient :=
    FirestoreClient.notifyUser { calm with store } batch.batchId (.error code)
  have unopened : answered.isOpen = false := by
    simp [FirestoreClient.isOpen, answered, calm, withState]
  have unstarted : answered.isStarted = false := by
    simp [FirestoreClient.isStarted, FirestoreClient.isOpen, answered, calm, withState]
  have consistent' : answered.Consistent :=
    { numbered := by simpa [answered] using removed.numbered
      oldest := by
        have oldest := consistent.oldest
        rw [pipelined, queue, List.cons_prefix_cons] at oldest
        simpa [answered, calm, withState, removed.queue] using oldest.2
      short := by
        have short := consistent.short
        rw [pipelined, List.length_cons] at short
        simp only [answered, calm, notifyUser_writePipeline, withState]
        omega
      greeting := fun opened => absurd (unopened.symm.trans opened) Bool.false_ne_true
      correlated := fun opened => absurd (unopened.symm.trans opened) Bool.false_ne_true
      quiet := fun _ => by
        simpa [answered, calm, withState] using consistent.quiet (not_open_of_stopped stopped)
      idle := fun timer => by
        have timer' : s.stream.idlenessTimer = true := by
          simpa [answered, calm, withState] using timer
        have opened := (consistent.idle timer').1
        rw [not_open_of_stopped stopped] at opened
        cases opened
      waiting := fun started => absurd (unstarted.symm.trans started) Bool.false_ne_true }
  have enabled' : answered.isNetworkEnabled = true := by
    simpa [answered, calm, withState] using enabled
  obtain ⟨t, filled, kept, front, same, running, isOpen, -⟩ :=
    fillWritePipeline_spec consistent' enabled'
  refine ⟨batch, rest, t, ?_, kept, ?_, running, isOpen.trans unopened, ?_, ?_⟩
  · have calmed : inhibitBackoff { s with writePipeline := pipeline } = .ok calm := by
      have unstarted : isStarted { s with writePipeline := pipeline } = false := stopped
      simp only [inhibitBackoff, hardAssert, unstarted, if_true, bind, Except.bind]
      rfl
    simp only [handleWriteError, if_pos permanent, pipelined, calmed, bind, Except.bind,
      handleRejectedWrite]
    rw [show calm.store = s.store from rfl, rejected]
    exact filled
  · rw [front, same.store]
  · have settled := notifyUser_mutationCallbacks { calm with store } batch.batchId (.error code)
    have told := notifyUser_told { calm with store } batch.batchId (.error code)
    simp only [removed.user] at settled told
    exact
      { head := queue
        removed := by
          rw [same.store]
          simpa [answered] using removed
        mutationCallbacks := same.mutationCallbacks.trans settled
        told := same.told.trans told
        isNetworkEnabled := by
          rw [same.isNetworkEnabled, enabled', enabled] }
  · rw [same.store]
    simpa [answered] using cache

/-- A stream that is not open may forget its handshake. -/
theorem Consistent.forget (consistent : s.Consistent) (unopened : s.isOpen = false) :
    Consistent { s with stream := { s.stream with handshakeComplete := false } } where
  numbered := consistent.numbered
  oldest := consistent.oldest
  short := consistent.short
  greeting := fun opened => absurd (unopened.symm.trans opened) Bool.false_ne_true
  correlated := fun opened => absurd (unopened.symm.trans opened) Bool.false_ne_true
  quiet := consistent.quiet
  idle := fun timer => absurd (unopened.symm.trans (consistent.idle timer).1) Bool.false_ne_true
  waiting := fun started _ => consistent.waiting started (by rw [unopened, Bool.false_and])

/-- Of a closed stream that is needed, the second half of `OnWriteStreamClose` starts the
    next one. -/
theorem restarted_spec (consistent : s.Consistent) (unopened : s.isOpen = false)
    (full : s.isNetworkEnabled = true → s.writePipeline = s.store.queue.take kMaxPendingWrites)
    (enabled : s.isNetworkEnabled = true) :
    ∃ t, (if s.shouldStartWriteStream then s.startWriteStream else .ok s) = .ok t ∧
      Resting { t with stream := { t.stream with handshakeComplete := false } } ∧
      SameStore s t ∧ t.isOpen = false := by
  by_cases needed : s.shouldStartWriteStream = true
  · rw [if_pos needed]
    obtain ⟨t, started, kept, pipeline, same, unopened', started', -⟩ :=
      startWriteStream_spec consistent needed
    refine ⟨t, started, ?_, same, unopened'⟩
    exact
      { kept.forget unopened' with
        full := fun enabled' => by
          change t.writePipeline = t.store.queue.take kMaxPendingWrites
          rw [pipeline, same.store, full (same.isNetworkEnabled.symm.trans enabled')]
        off := fun disabled => absurd
          ((same.isNetworkEnabled.trans enabled).symm.trans disabled) (by decide)
        running := by
          have running : t.shouldStartWriteStream = false := by
            simp [shouldStartWriteStream, started']
          exact running
        shaken := fun shaken => absurd shaken Bool.false_ne_true }
  · rw [if_neg needed]
    refine ⟨s, rfl, ?_, .refl s, unopened⟩
    exact
      { consistent.forget unopened with
        full := full
        off := fun disabled => absurd (enabled.symm.trans disabled) (by decide)
        running := by
          have running : s.shouldStartWriteStream = false := by simpa using needed
          exact running
        shaken := fun shaken => absurd shaken Bool.false_ne_true }

/-- The batch at the front of the pipeline is to blame for the end of the stream. -/
def rejects (s : FirestoreClient) : Status → Bool
  | .ok => false
  | .error code => !s.writePipeline.isEmpty && s.stream.handshakeComplete &&
      Datastore.isPermanentWriteError code

theorem Resting.enabled (resting : s.Resting) (started : s.isStarted = true) :
    s.isNetworkEnabled = true := by
  by_contra disabled
  have stopped := (resting.off (by simpa using disabled)).2
  rw [started] at stopped
  cases stopped

theorem Resting.started (resting : s.Resting) (enabled : s.isNetworkEnabled = true)
    (waiting : s.store.queue ≠ []) : s.isStarted = true := by
  by_contra stopped
  have running := resting.running
  rw [shouldStartWriteStream, enabled, resting.full enabled] at running
  cases queue : s.store.queue with
  | nil => exact waiting queue
  | cons batch rest => simp [stopped, queue, kMaxPendingWrites] at running

theorem close_eq (started : s.isStarted = true) (status : Status) :
    s.close status = (do
      let t ← (s.closed status).onWriteStreamClose status
      return { t with stream := { t.stream with handshakeComplete := false } }) := by
  rw [close, if_neg (by simp [started])]
  simp only [hardAssert, started, if_true, bind, Except.bind]
  rfl

/-- An error ends the stream: the batch to blame is settled, and if there are others the
    stream is started again. -/
theorem close_error_spec (resting : s.Resting) (started : s.isStarted = true) (code : ErrorCode) :
    ∃ t, s.close (.error code) = .ok t ∧ t.Resting ∧ t.isOpen = false ∧
      (s.rejects (.error code) = true ∧ t.store.remoteDocuments = s.store.remoteDocuments ∧
          (∃ batch rest, Settles s t batch rest (.error code)) ∨
        s.rejects (.error code) = false ∧ SameLocal s t) := by
  have enabled := resting.enabled started
  have consistent := resting.toConsistent.closed (.error code)
  have stopped := closed_stopped s (.error code)
  rw [close_eq started]
  simp only [onWriteStreamClose, handleClose, bind, Except.bind]
  by_cases faulty : s.rejects (.error code) = true
  · have causes := faulty
    simp only [rejects, Bool.and_eq_true] at causes
    have blamed : (!(s.closed (.error code)).writePipeline.isEmpty &&
        (s.closed (.error code)).stream.handshakeComplete) = true :=
      (Bool.and_eq_true _ _).mpr causes.1
    rw [if_pos blamed]
    obtain ⟨batch, rest, t, handled, kept, front, running, unopened, settles, cache⟩ :=
      handleWriteError_spec consistent stopped enabled
        (by simpa [FirestoreClient.closed] using causes.1.1) causes.2
    have enabled' : t.isNetworkEnabled = true := settles.isNetworkEnabled.trans enabled
    obtain ⟨u, restarted, rests, same, unopened'⟩ :=
      restarted_spec kept unopened (fun _ => front) enabled'
    rw [handled]
    simp only [pure, Except.pure] at restarted ⊢
    rw [restarted]
    refine ⟨_, rfl, rests, unopened', .inl ⟨faulty, ?_, batch, rest, ?_⟩⟩
    · change u.store.remoteDocuments = _
      rw [same.store, cache]
      rfl
    · exact
        { head := settles.head
          removed := by
            change LocalStore.HeadRemoved s.store u.store rest
            rw [same.store]
            exact settles.removed
          mutationCallbacks := same.mutationCallbacks.trans settles.mutationCallbacks
          told := same.told.trans settles.told
          isNetworkEnabled := same.isNetworkEnabled.trans settles.isNetworkEnabled }
  · have unchanged : (if (!(s.closed (.error code)).writePipeline.isEmpty &&
        (s.closed (.error code)).stream.handshakeComplete) = true then
          (s.closed (.error code)).handleWriteError code
        else .ok (s.closed (.error code))) = .ok (s.closed (.error code)) := by
      split
      · rename_i blamed
        have transient : Datastore.isPermanentWriteError code = false := by
          by_contra permanent
          apply faulty
          simp only [rejects, Bool.and_eq_true]
          exact ⟨(Bool.and_eq_true _ _).mp blamed, by simpa using permanent⟩
        rw [handleWriteError, transient]
        rfl
      · rfl
    rw [unchanged]
    obtain ⟨u, restarted, rests, same, unopened⟩ :=
      restarted_spec consistent (not_open_of_stopped stopped) resting.full enabled
    simp only [pure, Except.pure] at restarted ⊢
    rw [restarted]
    exact ⟨_, rfl, rests, unopened, .inr ⟨by simpa using faulty, same.store,
      same.mutationCallbacks, same.told⟩⟩

/-- The stream may only end without an error when nothing is left to send. -/
theorem close_ok_spec (resting : s.Resting) (started : s.isStarted = true) :
    if s.writePipeline = [] then
      ∃ t, s.close .ok = .ok t ∧ t.Resting ∧ t.isOpen = false ∧ SameLocal s t
    else s.close .ok = .error "Write stream was stopped gracefully while still needed." := by
  have enabled := resting.enabled started
  have stopped := closed_stopped s .ok
  rw [close_eq started]
  simp only [onWriteStreamClose, handleClose, bind, Except.bind]
  split
  · rename_i empty
    have needless : (s.closed .ok).shouldStartWriteStream = false := by
      simp [shouldStartWriteStream, closed, empty]
    obtain ⟨u, restarted, rests, same, unopened⟩ := restarted_spec
      (resting.toConsistent.closed .ok)
      (not_open_of_stopped stopped) resting.full enabled
    simp only [hardAssert, needless, if_true, pure, Except.pure] at restarted ⊢
    rw [restarted]
    exact ⟨_, rfl, rests, unopened, same.store, same.mutationCallbacks, same.told⟩
  · rename_i nonempty
    have needed : (s.closed .ok).shouldStartWriteStream = true := by
      simp only [shouldStartWriteStream, stopped, Bool.not_false, Bool.and_true, Bool.and_eq_true]
      exact ⟨enabled, by simpa [closed] using nonempty⟩
    simp [hardAssert, needed]

end DogFoodTracker.Core.FirestoreClient
