import DogFoodTracker.Core.RemoteStore

/-! # What the write pipeline keeps

The pipeline is the front of the current user's queue, and the requests and answers under
way on an open stream are those of its batches, in order. Every function of the client
keeps this, and as long as it holds none of its assertions fails.
-/

namespace DogFoodTracker.Core.FirestoreClient

/-- The requests on the stream are answered in order: the first batches have their answers
    under way, the others have not been answered. -/
def Correlated (pipeline : List MutationBatch) (call : Call) : Prop :=
  ∃ answered pending, pipeline = answered ++ pending ∧
    List.Forall₂ (fun (batch : MutationBatch) (response : Response) =>
      response.mutationResults.length = batch.mutations.length) answered call.responses ∧
    call.requests = pending.map fun batch => .write batch.mutations

/-- What holds also while the client is at work. -/
structure Consistent (s : FirestoreClient) : Prop where
  numbered : s.store.mutations.Numbered s.store.nextBatchId
  oldest : s.writePipeline <+: s.store.queue
  short : s.writePipeline.length ≤ kMaxPendingWrites
  /-- Before the handshake is complete, it is all there is on the stream. -/
  greeting : s.isOpen = true → s.stream.handshakeComplete = false →
    s.call.requests = [.handshake] ∧ s.call.responses = [] ∨
      s.call.requests = [] ∧ s.call.responses.length = 1
  correlated : s.isOpen = true → s.stream.handshakeComplete = true →
    Correlated s.writePipeline s.call
  quiet : s.isOpen = false → s.call = Call.quiet
  idle : s.stream.idlenessTimer = true →
    s.isOpen = true ∧ s.stream.handshakeComplete = true ∧ s.writePipeline = []
  /-- A stream is started for the sake of a batch. -/
  waiting : s.isStarted = true → (s.isOpen && s.stream.handshakeComplete) = false →
    s.writePipeline ≠ []

/-- What holds between the steps of the client. -/
structure Resting (s : FirestoreClient) : Prop extends Consistent s where
  full : s.isNetworkEnabled = true → s.writePipeline = s.store.queue.take kMaxPendingWrites
  off : s.isNetworkEnabled = false → s.writePipeline = [] ∧ s.isStarted = false
  running : s.shouldStartWriteStream = false
  shaken : s.stream.handshakeComplete = true → s.isOpen = true

/-- Nothing differs of what the client knows on the device. -/
structure SameLocal (s t : FirestoreClient) : Prop where
  store : t.store = s.store
  mutationCallbacks : t.mutationCallbacks = s.mutationCallbacks
  told : t.told = s.told

/-- Only the pipeline, the stream and what has been asked of the backend differ. -/
structure SameStore (s t : FirestoreClient) : Prop extends SameLocal s t where
  isNetworkEnabled : t.isNetworkEnabled = s.isNetworkEnabled
  responses : t.call.responses = s.call.responses

theorem SameLocal.refl (s : FirestoreClient) : SameLocal s s := ⟨rfl, rfl, rfl⟩

theorem SameLocal.trans {s t u : FirestoreClient} (first : SameLocal s t) (second : SameLocal t u) :
    SameLocal s u :=
  ⟨second.store.trans first.store, second.mutationCallbacks.trans first.mutationCallbacks,
    second.told.trans first.told⟩

theorem SameStore.refl (s : FirestoreClient) : SameStore s s := ⟨.refl s, rfl, rfl⟩

theorem SameStore.trans {s t u : FirestoreClient} (first : SameStore s t) (second : SameStore t u) :
    SameStore s u :=
  ⟨first.toSameLocal.trans second.toSameLocal,
    second.isNetworkEnabled.trans first.isNetworkEnabled,
    second.responses.trans first.responses⟩

theorem withState_same (s : FirestoreClient) (state : StreamState) :
    SameStore s (s.withState state) := ⟨⟨rfl, rfl, rfl⟩, rfl, rfl⟩

theorem isStarted_eq (s : FirestoreClient) :
    s.isStarted = false ↔ s.stream.state = .initial ∨ s.stream.state = .error := by
  unfold isStarted isOpen
  cases s.stream.state <;> simp

theorem isOpen_started {s : FirestoreClient} (opened : s.isOpen = true) : s.isStarted = true := by
  simp [isStarted, opened]

variable {s : FirestoreClient} {batch : MutationBatch} {rest : List MutationBatch}

/-! ## Adding to the pipeline -/

theorem Correlated.append {pipeline : List MutationBatch} {call : Call}
    (correlated : Correlated pipeline call) (batch : MutationBatch) :
    Correlated (pipeline ++ [batch])
      { call with requests := call.requests ++ [.write batch.mutations] } := by
  obtain ⟨answered, pending, parts, sizes, requests⟩ := correlated
  refine ⟨answered, pending ++ [batch], ?_, sizes, ?_⟩
  · rw [parts, List.append_assoc]
  · simp only [requests, List.map_append, List.map_cons, List.map_nil]

theorem addToWritePipeline_spec (consistent : s.Consistent)
    (may : s.canAddToWritePipeline = true) (queue : s.store.queue = s.writePipeline ++ batch :: rest) :
    ∃ t, s.addToWritePipeline batch = .ok t ∧ t.Consistent ∧
      t.writePipeline = s.writePipeline ++ [batch] ∧ SameStore s t ∧
      t.stream.state = s.stream.state ∧
      t.stream.handshakeComplete = s.stream.handshakeComplete := by
  have slot : s.writePipeline.length < kMaxPendingWrites := by
    simp only [canAddToWritePipeline, Bool.and_eq_true, decide_eq_true_eq] at may
    exact may.2
  have oldest : s.writePipeline ++ [batch] <+: s.store.queue := ⟨rest, by simp [queue]⟩
  have short : (s.writePipeline ++ [batch]).length ≤ kMaxPendingWrites := by
    rw [List.length_append, List.length_singleton]
    exact slot
  simp only [addToWritePipeline, may, hardAssert, if_true, bind, Except.bind]
  by_cases talking : s.isOpen = true ∧ s.stream.handshakeComplete = true
  · obtain ⟨opened, shaken⟩ := talking
    have opened' : s.stream.state = .opened := by simpa [isOpen] using opened
    refine ⟨{ s with
      writePipeline := s.writePipeline ++ [batch]
      stream := { s.stream with idlenessTimer := false }
      call := { s.call with requests := s.call.requests ++ [.write batch.mutations] } },
      ?_, ?_, rfl, ⟨⟨rfl, rfl, rfl⟩, rfl, rfl⟩, rfl, rfl⟩
    · simp [isOpen, opened', shaken, writeMutations, write, hardAssert, bind, Except.bind, pure,
        Except.pure]
    · exact
        { numbered := consistent.numbered
          oldest := oldest
          short := short
          greeting := fun _ unshaken => absurd (shaken.symm.trans unshaken) (by decide)
          correlated := fun _ _ => (consistent.correlated opened shaken).append batch
          quiet := fun closed => absurd (opened.symm.trans closed) (by decide)
          idle := fun timer => absurd timer Bool.false_ne_true
          waiting := fun _ _ => by simp }
  · have silent : (s.isOpen && s.stream.handshakeComplete) = false := by
      simpa using talking
    refine ⟨{ s with writePipeline := s.writePipeline ++ [batch] }, ?_, ?_, rfl,
      ⟨⟨rfl, rfl, rfl⟩, rfl, rfl⟩, rfl, rfl⟩
    · change (if (s.isOpen && s.stream.handshakeComplete) = true then _ else _) = _
      rw [silent]
      rfl
    · exact
        { numbered := consistent.numbered
          oldest := oldest
          short := short
          greeting := consistent.greeting
          correlated := fun opened shaken => absurd ⟨opened, shaken⟩ talking
          quiet := consistent.quiet
          idle := fun timer => absurd
            ⟨(consistent.idle timer).1, (consistent.idle timer).2.1⟩ talking
          waiting := fun _ _ => by simp }

/-- The batch after the last one of the pipeline is the next one of the queue. -/
theorem nextMutationBatch_eq {mutations : Mutations} {user : User} {pipeline : List MutationBatch}
    {last : Int} (queue : mutations.queue user = pipeline ++ rest)
    (taken : ∀ batch ∈ pipeline, batch.batchId ≤ last) (later : ∀ batch ∈ rest, last < batch.batchId) :
    mutations.nextMutationBatchAfterBatchId user last = rest.head? := by
  rw [Mutations.nextMutationBatchAfterBatchId, queue, List.find?_append]
  have skipped : pipeline.find? (fun batch => decide (last + 1 ≤ batch.batchId)) = none := by
    apply List.find?_eq_none.mpr
    intro batch member
    have := taken batch member
    simp only [decide_eq_true_eq]
    omega
  rw [skipped, Option.none_or]
  cases rest with
  | nil => rfl
  | cons batch rest =>
      have := later batch List.mem_cons_self
      rw [List.find?_cons_of_pos, List.head?_cons]
      simp only [decide_eq_true_eq]
      omega

theorem markIdle_spec (consistent : s.Consistent) (empty : s.writePipeline = []) :
    s.markIdle.Consistent ∧ s.markIdle.writePipeline = [] ∧ SameStore s s.markIdle ∧
      s.markIdle.stream.state = s.stream.state ∧
      s.markIdle.stream.handshakeComplete = s.stream.handshakeComplete := by
  by_cases opened : s.isOpen = true
  · have shaken : s.stream.handshakeComplete = true := by
      by_contra unshaken
      exact consistent.waiting (isOpen_started opened) (by simp [unshaken]) empty
    rw [markIdle, if_pos opened]
    refine ⟨?_, empty, ⟨⟨rfl, rfl, rfl⟩, rfl, rfl⟩, rfl, rfl⟩
    exact { consistent with idle := fun _ => ⟨opened, shaken, empty⟩ }
  · rw [markIdle, if_neg opened]
    exact ⟨consistent, empty, .refl s, rfl, rfl⟩

/-- The loop of `FillWritePipeline` takes as many batches from the queue as there are slots. -/
theorem fillSlots_spec (slots : Nat) {last : Int} (consistent : s.Consistent)
    (enabled : s.isNetworkEnabled = true) (queue : s.store.queue = s.writePipeline ++ rest)
    (free : s.writePipeline.length + slots = kMaxPendingWrites)
    (taken : ∀ batch ∈ s.writePipeline, batch.batchId ≤ last)
    (later : ∀ batch ∈ rest, last < batch.batchId) :
    ∃ t, fillSlots slots last s = .ok t ∧ t.Consistent ∧
      t.writePipeline = s.writePipeline ++ rest.take slots ∧ SameStore s t ∧
      t.stream.state = s.stream.state ∧
      t.stream.handshakeComplete = s.stream.handshakeComplete := by
  induction slots generalizing s last rest with
  | zero => exact ⟨s, rfl, consistent, by simp, .refl s, rfl, rfl⟩
  | succ slots ih =>
      have may : s.canAddToWritePipeline = true := by
        simp only [canAddToWritePipeline, enabled, Bool.true_and, decide_eq_true_eq]
        omega
      rw [fillSlots, if_pos may, nextMutationBatch_eq queue taken later]
      cases rest with
      | nil =>
          simp only [List.head?_nil, List.take_nil, List.append_nil]
          by_cases empty : s.writePipeline = []
          · rw [if_pos (by simp [empty])]
            obtain ⟨kept, empty', same, state, shaken⟩ := markIdle_spec consistent empty
            exact ⟨_, rfl, kept, empty'.trans empty.symm, same, state, shaken⟩
          · rw [if_neg (by simpa using empty)]
            exact ⟨s, rfl, consistent, rfl, .refl s, rfl, rfl⟩
      | cons batch rest =>
          obtain ⟨t, added, kept, pipeline, same, state, shaken⟩ :=
            addToWritePipeline_spec consistent may queue
          simp only [List.head?_cons, added, bind, Except.bind]
          have increasing := consistent.numbered.queue s.store.user
          rw [← LocalStore.queue, queue, List.pairwise_append, List.pairwise_cons] at increasing
          have queue' : t.store.queue = t.writePipeline ++ rest := by
            rw [same.store, queue, pipeline, List.append_assoc, List.singleton_append]
          have free' : t.writePipeline.length + slots = kMaxPendingWrites := by
            rw [pipeline, List.length_append, List.length_singleton]
            omega
          have taken' : ∀ earlier ∈ t.writePipeline, earlier.batchId ≤ batch.batchId := by
            intro earlier member
            rw [pipeline] at member
            rcases List.mem_append.mp member with old | new
            · have := taken earlier old
              have := later batch List.mem_cons_self
              omega
            · rw [List.mem_singleton.mp new]
          obtain ⟨u, filled, kept', pipeline', same', state', shaken'⟩ :=
            ih kept (same.isNetworkEnabled.trans enabled) queue' free' taken' increasing.2.1.1
          refine ⟨u, filled, kept', ?_, same.trans same', state'.trans state, shaken'.trans shaken⟩
          rw [pipeline', pipeline, List.take_succ_cons, List.append_assoc, List.singleton_append]

/-! ## Starting the stream -/

theorem startWriteStream_spec (consistent : s.Consistent)
    (needed : s.shouldStartWriteStream = true) :
    ∃ t, s.startWriteStream = .ok t ∧ t.Consistent ∧ t.writePipeline = s.writePipeline ∧
      SameStore s t ∧ t.isOpen = false ∧ t.isStarted = true ∧
      t.stream.handshakeComplete = s.stream.handshakeComplete := by
  have parts : (s.isNetworkEnabled = true ∧ s.isStarted = false) ∧ s.writePipeline ≠ [] := by
    simpa [shouldStartWriteStream] using needed
  obtain ⟨⟨enabled, stopped⟩, nonempty⟩ := parts
  have closed : s.isOpen = false := by
    by_contra opened
    have := isOpen_started (Bool.not_eq_false _ ▸ opened)
    rw [stopped] at this
    cases this
  have started : ∀ state : StreamState, state ≠ .opened → (s.withState state).Consistent := by
    intro state unopened
    have closed' : (s.withState state).isOpen = false := decide_eq_false unopened
    exact
      { numbered := consistent.numbered
        oldest := consistent.oldest
        short := consistent.short
        greeting := fun opened => absurd (closed'.symm.trans opened) Bool.false_ne_true
        correlated := fun opened => absurd (closed'.symm.trans opened) Bool.false_ne_true
        quiet := fun _ => consistent.quiet closed
        idle := fun timer => absurd (closed.symm.trans (consistent.idle timer).1) Bool.false_ne_true
        waiting := fun _ _ => nonempty }
  simp only [startWriteStream, needed, hardAssert, if_true, bind, Except.bind]
  rcases (isStarted_eq s).mp stopped with fresh | failed
  · refine ⟨s.withState .starting, ?_, started .starting (by decide), rfl, withState_same s _,
      rfl, rfl, rfl⟩
    simp [startStream, fresh, hardAssert, bind, Except.bind, pure, Except.pure]
  · refine ⟨s.withState .backoff, ?_, started .backoff (by decide), rfl, withState_same s _,
      rfl, rfl, rfl⟩
    simp [startStream, backoffAndTryRestarting, failed, hardAssert, bind, Except.bind, pure,
      Except.pure]

/-- `FillWritePipeline` makes the pipeline the front of the queue and starts the stream when
    there is something to send. -/
theorem fillWritePipeline_spec (consistent : s.Consistent) (enabled : s.isNetworkEnabled = true) :
    ∃ t, s.fillWritePipeline = .ok t ∧ t.Consistent ∧
      t.writePipeline = s.store.queue.take kMaxPendingWrites ∧ SameStore s t ∧
      t.shouldStartWriteStream = false ∧ t.isOpen = s.isOpen ∧
      t.stream.handshakeComplete = s.stream.handshakeComplete := by
  obtain ⟨rest, queue⟩ := consistent.oldest
  have increasing := consistent.numbered.queue s.store.user
  rw [← LocalStore.queue, ← queue, List.pairwise_append] at increasing
  have positive : ∀ batch ∈ s.store.queue, 0 < batch.batchId :=
    fun batch member => consistent.numbered.positive _ (Mutations.mem_queue.mp member)
  have taken : ∀ batch ∈ s.writePipeline, batch.batchId ≤ s.lastBatchIdRetrieved := by
    intro batch member
    rcases List.eq_nil_or_concat s.writePipeline with empty | ⟨front, last, parts⟩
    · rw [empty] at member
      cases member
    · rw [lastBatchIdRetrieved]
      rw [parts] at increasing member ⊢
      simp only [List.concat_eq_append, List.getLast?_append, List.getLast?_singleton,
        Option.some_or, Option.map_some, Option.getD_some]
      rw [List.concat_eq_append, List.mem_append, List.mem_singleton] at member
      rcases member with earlier | rfl
      · rw [List.concat_eq_append, List.pairwise_append] at increasing
        exact le_of_lt (increasing.1.2.2 batch earlier last List.mem_cons_self)
      · exact le_rfl
  have later : ∀ batch ∈ rest, s.lastBatchIdRetrieved < batch.batchId := by
    intro batch member
    rw [lastBatchIdRetrieved]
    cases last : s.writePipeline.getLast? with
    | none =>
        have := positive batch (by rw [← queue]; exact List.mem_append_right _ member)
        simp only [Option.map_none, Option.getD_none, kBatchIdUnknown]
        omega
    | some front =>
        exact increasing.2.2 front (List.mem_of_getLast? last) batch member
  have free : s.writePipeline.length + (kMaxPendingWrites - s.writePipeline.length) =
      kMaxPendingWrites := by
    have := consistent.short
    omega
  obtain ⟨t, filled, kept, pipeline, same, state, shaken⟩ :=
    fillSlots_spec _ consistent enabled queue.symm free taken later
  have front : t.writePipeline = s.store.queue.take kMaxPendingWrites := by
    rw [pipeline, ← queue, List.take_append, List.take_of_length_le consistent.short]
  have opened : t.isOpen = s.isOpen := by simp only [isOpen, state]
  rw [fillWritePipeline, filled]
  simp only [bind, Except.bind]
  by_cases needed : t.shouldStartWriteStream = true
  · rw [if_pos needed]
    obtain ⟨u, started, kept', pipeline', same', closed', started', shaken'⟩ :=
      startWriteStream_spec kept needed
    have closed : t.isOpen = false := by
      by_contra opened'
      have running := isOpen_started (Bool.not_eq_false _ ▸ opened')
      simp [shouldStartWriteStream, running] at needed
    refine ⟨u, started, kept', pipeline'.trans front, same.trans same', ?_, ?_,
      shaken'.trans shaken⟩
    · simp [shouldStartWriteStream, started']
    · rw [closed', ← opened, closed]
  · rw [if_neg needed]
    exact ⟨t, rfl, kept, front, same, by simpa using needed, opened, shaken⟩

/-- Without the network nothing is put in the pipeline. -/
theorem fillWritePipeline_disabled (disabled : s.isNetworkEnabled = false) :
    s.fillWritePipeline = .ok s := by
  have full : ∀ slots last, fillSlots slots last s = .ok s := by
    intro slots last
    cases slots with
    | zero => rfl
    | succ slots =>
        rw [fillSlots, if_neg]
        simp [canAddToWritePipeline, disabled]
  rw [fillWritePipeline, full]
  simp only [bind, Except.bind, shouldStartWriteStream, disabled, Bool.false_and]
  rfl

/-! ## Answers -/

@[simp] theorem notifyUser_store (s : FirestoreClient) (batchId : Int) (status : Status) :
    (s.notifyUser batchId status).store = s.store := by
  unfold notifyUser
  split <;> rfl

@[simp] theorem notifyUser_writePipeline (s : FirestoreClient) (batchId : Int) (status : Status) :
    (s.notifyUser batchId status).writePipeline = s.writePipeline := by
  unfold notifyUser
  split <;> rfl

@[simp] theorem notifyUser_stream (s : FirestoreClient) (batchId : Int) (status : Status) :
    (s.notifyUser batchId status).stream = s.stream := by
  unfold notifyUser
  split <;> rfl

@[simp] theorem notifyUser_call (s : FirestoreClient) (batchId : Int) (status : Status) :
    (s.notifyUser batchId status).call = s.call := by
  unfold notifyUser
  split <;> rfl

@[simp] theorem notifyUser_isNetworkEnabled (s : FirestoreClient) (batchId : Int)
    (status : Status) : (s.notifyUser batchId status).isNetworkEnabled = s.isNetworkEnabled := by
  unfold notifyUser
  split <;> rfl

/-- The first batch of the queue has been answered: it is gone and its callback has been
    called. -/
structure Settles (s t : FirestoreClient) (batch : MutationBatch) (rest : List MutationBatch)
    (status : Status) : Prop where
  head : s.store.queue = batch :: rest
  removed : LocalStore.HeadRemoved s.store t.store rest
  mutationCallbacks : t.mutationCallbacks =
    fun user id => if user = s.store.user ∧ id = batch.batchId then none
      else s.mutationCallbacks user id
  told : t.told = Function.update s.told s.store.user (s.told s.store.user ++
    ((s.mutationCallbacks s.store.user batch.batchId).map (·, status)).toList)
  isNetworkEnabled : t.isNetworkEnabled = s.isNetworkEnabled

theorem notifyUser_mutationCallbacks (s : FirestoreClient) (batchId : Int) (status : Status) :
    (s.notifyUser batchId status).mutationCallbacks =
      fun user id => if user = s.store.user ∧ id = batchId then none
        else s.mutationCallbacks user id := by
  funext user id
  unfold notifyUser
  split
  · rename_i absent
    by_cases here : user = s.store.user ∧ id = batchId
    · rw [if_pos here, here.1, here.2, absent]
    · rw [if_neg here]
  · by_cases mine : user = s.store.user
    · subst mine
      by_cases here : id = batchId
      · simp [here]
      · simp [here]
    · simp [mine]

theorem notifyUser_told (s : FirestoreClient) (batchId : Int) (status : Status) :
    (s.notifyUser batchId status).told = Function.update s.told s.store.user
      (s.told s.store.user ++
        ((s.mutationCallbacks s.store.user batchId).map (·, status)).toList) := by
  unfold notifyUser
  split
  · rename_i absent
    simp [absent]
  · rename_i ticket present
    simp [present]

/-- Settling the first batch of the pipeline leaves the client consistent. -/
theorem Consistent.settled (consistent : s.Consistent) {t : FirestoreClient}
    {pipeline : List MutationBatch} (pipelined : s.writePipeline = batch :: pipeline)
    (queue : s.store.queue = batch :: rest) (removed : LocalStore.HeadRemoved s.store t.store rest)
    (left : t.writePipeline = pipeline) (stream : t.stream = s.stream)
    (correlated : t.isOpen = true → t.stream.handshakeComplete = true →
      Correlated t.writePipeline t.call)
    (quiet : t.isOpen = false → t.call = Call.quiet)
    (shaken : t.isStarted = true → t.isOpen = true ∧ t.stream.handshakeComplete = true) :
    t.Consistent where
  numbered := removed.numbered
  oldest := by
    have oldest := consistent.oldest
    rw [pipelined, queue, List.cons_prefix_cons] at oldest
    rw [left, removed.queue]
    exact oldest.2
  short := by
    have short := consistent.short
    rw [pipelined, List.length_cons] at short
    rw [left]
    omega
  greeting := fun opened unshaken =>
    absurd ((shaken (isOpen_started opened)).2.symm.trans unshaken) (by decide)
  correlated := correlated
  quiet := quiet
  idle := fun timer => by
    have empty := (consistent.idle (stream ▸ timer)).2.2
    rw [pipelined] at empty
    cases empty
  waiting := fun started silent => by
    obtain ⟨opened, complete⟩ := shaken started
    rw [opened, complete] at silent
    cases silent

theorem Correlated.answer {pipeline : List MutationBatch} {call : Call} {response : Response}
    {responses : List Response} (correlated : Correlated pipeline call)
    (arrived : call.responses = response :: responses) :
    ∃ batch rest, pipeline = batch :: rest ∧
      response.mutationResults.length = batch.mutations.length ∧
      Correlated rest { call with responses } := by
  obtain ⟨answered, pending, parts, sizes, requests⟩ := correlated
  rw [arrived] at sizes
  cases sizes with
  | @cons batch _ answered _ sized sizes =>
      exact ⟨batch, answered ++ pending, parts, sized, answered, pending, rfl, sizes, requests⟩

/-- The answer that arrives is the one to the first batch of the queue. -/
theorem onWriteStreamMutationResult_spec (resting : s.Resting) (opened : s.isOpen = true)
    (shaken : s.stream.handshakeComplete = true) {response : Response} {responses : List Response}
    (arrived : s.call.responses = response :: responses) :
    ∃ batch rest t, response.mutationResults.length = batch.mutations.length ∧
      onWriteStreamMutationResult { s with call := { s.call with responses } } response = .ok t ∧
      t.Resting ∧ Settles s t batch rest .ok ∧
      s.store.acknowledgeBatch ⟨batch, response.commitVersion, response.mutationResults⟩ =
        .ok t.store ∧ t.call.responses = responses ∧ t.stream.handshakeComplete = true := by
  obtain ⟨batch, pipeline, pipelined, sized, correlated⟩ :=
    (resting.correlated opened shaken).answer arrived
  obtain ⟨rest, queue⟩ : ∃ rest, s.store.queue = batch :: rest := by
    obtain ⟨later, parts⟩ := resting.oldest
    exact ⟨pipeline ++ later, by rw [← parts, pipelined, List.cons_append]⟩
  have enabled : s.isNetworkEnabled = true := by
    by_contra disabled
    have stopped := (resting.off (by simpa using disabled)).2
    rw [isOpen_started opened] at stopped
    cases stopped
  obtain ⟨store, acknowledged, removed, -⟩ := LocalStore.acknowledgeBatch_head resting.numbered
    ⟨batch, response.commitVersion, response.mutationResults⟩ queue sized
  let popped : FirestoreClient :=
    { s with writePipeline := pipeline, call := { s.call with responses } }
  let answered : FirestoreClient := { popped.notifyUser batch.batchId .ok with store }
  have consistent : answered.Consistent := by
    have opened' : answered.isOpen = true := by
      simpa [isOpen, answered, popped] using opened
    apply resting.toConsistent.settled pipelined queue removed
    · exact notifyUser_writePipeline _ _ _
    · exact notifyUser_stream _ _ _
    · intro _ _
      change Correlated (popped.notifyUser batch.batchId .ok).writePipeline
        (popped.notifyUser batch.batchId .ok).call
      rw [notifyUser_writePipeline, notifyUser_call]
      exact correlated
    · intro closed
      rw [opened'] at closed
      cases closed
    · intro _
      exact ⟨opened', by simpa [answered, popped] using shaken⟩
  have enabled' : answered.isNetworkEnabled = true := by
    simpa [answered, popped] using enabled
  obtain ⟨t, filled, kept, front, same, running, isOpen, complete⟩ :=
    fillWritePipeline_spec consistent enabled'
  refine ⟨batch, rest, t, sized, ?_, ?_, ?_, ?_, ?_, ?_⟩
  · simp only [onWriteStreamMutationResult, pipelined, hardAssert, if_pos sized.symm, bind,
      Except.bind, handleSuccessfulWrite, notifyUser_store, acknowledged]
    exact filled
  · exact
      { kept with
        full := fun _ => by rw [same.store]; exact front
        off := fun disabled => absurd
          ((same.isNetworkEnabled.trans enabled').symm.trans disabled) (by decide)
        running := running
        shaken := fun _ => by
          rw [isOpen]
          simpa [FirestoreClient.isOpen, answered, popped] using opened }
  · exact
      { head := queue
        removed := by rw [same.store]; exact removed
        mutationCallbacks := by
          rw [same.mutationCallbacks]
          exact notifyUser_mutationCallbacks popped batch.batchId .ok
        told := by
          rw [same.told]
          exact notifyUser_told popped batch.batchId .ok
        isNetworkEnabled := by
          rw [same.isNetworkEnabled, enabled', enabled] }
  · rw [same.store]
    exact acknowledged
  · rw [same.responses]
    change (popped.notifyUser batch.batchId .ok).call.responses = responses
    rw [notifyUser_call]
  · rw [complete]
    simpa [answered, popped] using shaken

end DogFoodTracker.Core.FirestoreClient
