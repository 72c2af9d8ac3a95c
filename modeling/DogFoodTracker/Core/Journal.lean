import DogFoodTracker.Core.Reactions

/-! # The journal of the users' writes

The journal is kept beside a run and knows what the client forgets: every write that a
user has made, in order, what has become of the first of them, and what the backend has
committed. The queue on the device is the rest of the writes, through everything that
happens to the network, the users and the processes.
-/

namespace DogFoodTracker.Core

/-- What has become of a write. -/
inductive Outcome where
  | acknowledged (response : Response)
  | rejected (code : ErrorCode)

def Outcome.status : Outcome → Status
  | .acknowledged _ => .ok
  | .rejected code => .error code

/-- The completion is `none` when its process has ended. -/
structure Write where
  batch : MutationBatch
  completion : Option Ticket

/-- What the backend has committed: the number of the write among those of its user, and
    how many outcomes the user's writes had at the time. -/
structure Commit where
  write : Nat
  mutations : List Mutation
  response : Response
  settled : Nat

/-- The outcomes are those of the first writes. -/
structure Journal where
  writes : List Write
  outcomes : List Outcome
  commits : List Commit

namespace Journal

def blank : Journal := ⟨[], [], []⟩

/-- The writes without an outcome. -/
def pending (j : Journal) : List Write :=
  j.writes.drop j.outcomes.length

/-- What the completions are called with. -/
def told (j : Journal) : List (Ticket × Status) :=
  (j.writes.zip j.outcomes).filterMap fun (write, outcome) =>
    write.completion.map (·, outcome.status)

def write (j : Journal) (batch : MutationBatch) (ticket : Ticket) : Journal :=
  { j with writes := j.writes ++ [⟨batch, some ticket⟩] }

def settle (j : Journal) (outcome : Outcome) : Journal :=
  { j with outcomes := j.outcomes ++ [outcome] }

/-- The backend commits the write after those that are settled or have answers under way. -/
def commit (j : Journal) (underWay : Nat) (mutations : List Mutation) (response : Response) :
    Journal :=
  { j with commits := j.commits ++
      [⟨j.outcomes.length + underWay, mutations, response, j.outcomes.length⟩] }

def forget (j : Journal) : Journal :=
  { j with writes := j.writes.map fun write => { write with completion := none } }

end Journal

abbrev Past := User → Journal

namespace FirestoreClient

/-- The journals after an event, which is `recorded` in the state that it finds. -/
def record (r : System) (a : Action) (past : Past) : Past :=
  match r with
  | .error _ => past
  | .ok s =>
      let mine := past s.store.user
      match s.occurrence a with
      | some (.written ticket mutations) =>
          if nonempty : mutations ≠ [] then
            Function.update past s.store.user
              (mine.write (s.store.writeLocally mutations nonempty).1 ticket)
          else past
      | some (.committed mutations response) =>
          Function.update past s.store.user (mine.commit s.answers.length mutations response)
      | some (.acknowledged response) =>
          Function.update past s.store.user (mine.settle (.acknowledged response))
      | some (.rejected code) =>
          Function.update past s.store.user (mine.settle (.rejected code))
      | some (.relaunched _) => fun user => (past user).forget
      | none => past

end FirestoreClient

namespace Journal

/-! ## The journal of one user -/

/-- What the client keeps of a user fits the journal. -/
structure Fits (j : Journal) (queue : List MutationBatch) (callbacks : Int → Option Ticket)
    (told : List (Ticket × Status)) : Prop where
  settled : j.outcomes.length ≤ j.writes.length
  queue : queue = j.pending.map Write.batch
  callbacks : ∀ batchId,
    callbacks batchId = (j.pending.find? (·.batch.batchId = batchId)).bind Write.completion
  told : told = j.told

variable {j : Journal} {queue rest : List MutationBatch} {callbacks : Int → Option Ticket}
  {told : List (Ticket × Status)} {batch : MutationBatch}

/-- The writes are those with an outcome and then the pending ones. -/
theorem Fits.parts (fits : j.Fits queue callbacks told) :
    ∃ done, done.length = j.outcomes.length ∧ j.writes = done ++ j.pending :=
  ⟨j.writes.take j.outcomes.length, List.length_take_of_le fits.settled,
    (List.take_append_drop _ _).symm⟩

theorem told_append {done later : List Write} {outcomes : List Outcome} {commits : List Commit}
    (same : done.length = outcomes.length) :
    Journal.told ⟨done ++ later, outcomes, commits⟩ = Journal.told ⟨done, outcomes, commits⟩ := by
  rw [Journal.told, Journal.told]
  have none_left : (done ++ later).zip (outcomes ++ []) = done.zip outcomes ++ later.zip [] :=
    List.zip_append same
  rw [List.append_nil, List.zip_nil_right, List.append_nil] at none_left
  rw [none_left]

theorem blank_fits : blank.Fits [] (fun _ => none) [] :=
  ⟨le_rfl, rfl, fun _ => rfl, rfl⟩

theorem Fits.write (fits : j.Fits queue callbacks told) (ticket : Ticket)
    (fresh : ∀ earlier ∈ queue, earlier.batchId < batch.batchId) :
    (j.write batch ticket).Fits (queue ++ [batch])
      (Function.update callbacks batch.batchId ((callbacks batch.batchId).or (some ticket)))
      told := by
  have pending : (j.write batch ticket).pending = j.pending ++ [⟨batch, some ticket⟩] :=
    List.drop_append_of_le_length fits.settled
  have unknown : j.pending.find? (·.batch.batchId = batch.batchId) = none := by
    apply List.find?_eq_none.mpr
    intro write member
    have less := fresh write.batch (by rw [fits.queue]; exact List.mem_map_of_mem member)
    simp only [decide_eq_true_eq]
    omega
  refine ⟨?_, ?_, ?_, ?_⟩
  · rw [Journal.write, List.length_append]
    exact Nat.le_add_right_of_le fits.settled
  · rw [pending, List.map_append, ← fits.queue]
    rfl
  · intro batchId
    rw [pending, List.find?_append]
    by_cases here : batchId = batch.batchId
    · subst here
      rw [Function.update_self, fits.callbacks, unknown]
      simp
    · rw [Function.update_of_ne here, fits.callbacks, List.find?_cons_of_neg, List.find?_nil,
        Option.or_none]
      simpa using Ne.symm here
  · obtain ⟨done, same, parts⟩ := fits.parts
    obtain ⟨writes, outcomes, commits⟩ := j
    simp only at same parts
    rw [fits.told, Journal.write, parts, List.append_assoc, told_append same, told_append same]

theorem Fits.settle (fits : j.Fits (batch :: rest) callbacks told) (outcome : Outcome)
    (increasing : (batch :: rest).Pairwise fun batch later => batch.batchId < later.batchId) :
    (j.settle outcome).Fits rest
      (fun batchId => if batchId = batch.batchId then none else callbacks batchId)
      (told ++ ((callbacks batch.batchId).map (·, outcome.status)).toList) := by
  obtain ⟨done, same, parts⟩ := fits.parts
  have batches := fits.queue
  have known := fits.callbacks
  cases waiting : j.pending with
  | nil =>
      rw [waiting] at batches
      cases batches
  | cons write later =>
      rw [waiting, List.map_cons, List.cons.injEq] at batches
      obtain ⟨rfl, queue⟩ := batches
      rw [waiting] at parts known
      have pending : (j.settle outcome).pending = later := by
        rw [Journal.pending, Journal.settle, parts, List.length_append, ← same]
        simp
      refine ⟨?_, ?_, ?_, ?_⟩
      · rw [Journal.settle, List.length_append, parts, List.length_append, same]
        simp
      · rw [pending, queue]
      · intro batchId
        rw [pending]
        by_cases here : batchId = write.batch.batchId
        · rw [if_pos here, List.find?_eq_none.mpr]
          · rfl
          · intro other member
            rw [List.pairwise_cons, queue] at increasing
            have less := increasing.1 other.batch (List.mem_map_of_mem member)
            simp only [decide_eq_true_eq]
            omega
        · rw [if_neg here, known, List.find?_cons_of_neg]
          simpa using Ne.symm here
      · have mine : callbacks write.batch.batchId = write.completion := by
          rw [known, List.find?_cons_of_pos (by simp), Option.bind_some]
        obtain ⟨writes, outcomes, commits⟩ := j
        simp only at same parts
        rw [fits.told, mine, Journal.settle, parts, told_append same, ← List.singleton_append,
          ← List.append_assoc, told_append (by simp [same]), Journal.told, Journal.told,
          List.zip_append same, List.filterMap_append]
        cases completion : write.completion <;> simp [completion]

theorem Fits.forget (fits : j.Fits queue callbacks told) :
    j.forget.Fits queue (fun _ => none) [] := by
  have pending : j.forget.pending =
      j.pending.map fun write => { write with completion := none } := by
    rw [Journal.pending, Journal.forget, Journal.pending, List.map_drop]
  refine ⟨?_, ?_, ?_, ?_⟩
  · rw [Journal.forget, List.length_map]
    exact fits.settled
  · rw [fits.queue, pending, List.map_map]
    rfl
  · intro batchId
    rw [pending, List.find?_map]
    cases (j.pending.find? _) <;> rfl
  · rw [Journal.told, Journal.forget, List.zip_map_left, List.filterMap_map]
    exact (List.filterMap_eq_nil_iff.mpr fun _ _ => rfl).symm

theorem Fits.commit (fits : j.Fits queue callbacks told) (underWay : Nat)
    (mutations : List Mutation) (response : Response) :
    (j.commit underWay mutations response).Fits queue callbacks told :=
  ⟨fits.settled, fits.queue, fits.callbacks, fits.told⟩

/-- The callbacks that wait are the completions of the pending writes. -/
theorem Fits.callback_iff (fits : j.Fits queue callbacks told)
    (increasing : queue.Pairwise fun batch later => batch.batchId < later.batchId)
    {batchId : Int} {ticket : Ticket} :
    callbacks batchId = some ticket ↔
      ∃ write ∈ j.pending, write.batch.batchId = batchId ∧ write.completion = some ticket := by
  rw [fits.callbacks]
  rw [fits.queue, List.pairwise_map] at increasing
  generalize j.pending = pending at increasing
  induction pending with
  | nil => simp
  | cons write rest ih =>
      rw [List.pairwise_cons] at increasing
      by_cases here : write.batch.batchId = batchId
      · rw [List.find?_cons_of_pos (by simpa using here), Option.bind_some]
        constructor
        · intro completion
          exact ⟨write, List.mem_cons_self, here, completion⟩
        · rintro ⟨other, member, same, completion⟩
          cases member with
          | head => exact completion
          | tail _ later =>
              have less := increasing.1 other later
              omega
      · rw [List.find?_cons_of_neg (by simpa using here), ih increasing.2]
        simp [here]

/-! ## The backend's part -/

/-- The commits of a user's writes, with the answers to them that are under way. -/
structure Backed (j : Journal) (answers : List Response) : Prop where
  made : ∀ commit ∈ j.commits, ∃ write, j.writes[commit.write]? = some write ∧
    write.batch.mutations = commit.mutations ∧
    commit.response.mutationResults.length = commit.mutations.length
  /-- A write is committed before it has an outcome, and at most ten ahead. -/
  window : ∀ commit ∈ j.commits,
    commit.settled ≤ commit.write ∧ commit.write < commit.settled + kMaxPendingWrites
  /-- All earlier writes have been committed before, or are rejected. -/
  gapless : ∀ before commit after, j.commits = before ++ commit :: after →
    ∀ n < commit.write, (∃ earlier ∈ before, earlier.write = n) ∨
      ∃ code, j.outcomes[n]? = some (.rejected code)
  acknowledged : ∀ n response, j.outcomes[n]? = some (.acknowledged response) →
    ∃ commit ∈ j.commits, commit.write = n ∧ commit.response = response
  awaited : ∀ n response, answers[n]? = some response →
    ∃ commit ∈ j.commits, commit.write = j.outcomes.length + n ∧ commit.response = response

variable {answers : List Response}

theorem blank_backed : blank.Backed [] where
  made := fun _ member => (List.not_mem_nil member).elim
  window := fun _ member => (List.not_mem_nil member).elim
  gapless := fun before _ _ parts => by
    cases before <;> cases parts
  acknowledged := fun _ _ present => by cases present
  awaited := fun _ _ present => by cases present

/-- Answers can be lost. -/
theorem Backed.lost (backed : j.Backed answers) : j.Backed [] :=
  { backed with awaited := fun _ _ present => by cases present }

theorem Backed.write (backed : j.Backed answers) (batch : MutationBatch) (ticket : Ticket) :
    (j.write batch ticket).Backed answers :=
  { backed with
    made := fun commit member => by
      obtain ⟨write, present, rest⟩ := backed.made commit member
      refine ⟨write, ?_, rest⟩
      have inside := (List.getElem?_eq_some_iff.mp present).1
      rw [Journal.write, List.getElem?_append_left inside]
      exact present }

theorem Backed.forget (backed : j.Backed answers) : j.forget.Backed [] :=
  { backed.lost with
    made := fun commit member => by
      obtain ⟨write, present, rest⟩ := backed.made commit member
      refine ⟨{ write with completion := none }, ?_, rest⟩
      rw [Journal.forget, List.getElem?_map, present]
      rfl }

theorem Backed.reject (backed : j.Backed answers) (code : ErrorCode) :
    (j.settle (.rejected code)).Backed [] where
  made := backed.made
  window := backed.window
  gapless := fun before commit after parts n less => by
    refine (backed.gapless before commit after parts n less).imp_right ?_
    rintro ⟨code', present⟩
    refine ⟨code', ?_⟩
    rw [Journal.settle, List.getElem?_append_left (List.getElem?_eq_some_iff.mp present).1]
    exact present
  acknowledged := fun n response present => by
    rw [Journal.settle, List.getElem?_append] at present
    split at present
    · exact backed.acknowledged n response present
    · rw [List.getElem?_singleton] at present
      split at present <;> cases present
  awaited := fun _ _ present => by cases present

theorem Backed.acknowledge {response : Response} (backed : j.Backed (response :: answers)) :
    (j.settle (.acknowledged response)).Backed answers where
  made := backed.made
  window := backed.window
  gapless := fun before commit after parts n less => by
    refine (backed.gapless before commit after parts n less).imp_right ?_
    rintro ⟨code, present⟩
    refine ⟨code, ?_⟩
    rw [Journal.settle, List.getElem?_append_left (List.getElem?_eq_some_iff.mp present).1]
    exact present
  acknowledged := fun n response' present => by
    rw [Journal.settle, List.getElem?_append] at present
    split at present
    · exact backed.acknowledged n response' present
    · rename_i outside
      rw [List.getElem?_singleton] at present
      split at present
      · rename_i first
        obtain ⟨rfl⟩ := Option.some.inj present
        obtain ⟨commit, member, number, answered⟩ := backed.awaited 0 response rfl
        exact ⟨commit, member, by omega, answered⟩
      · cases present
  awaited := fun n response' present => by
    obtain ⟨commit, member, number, answered⟩ := backed.awaited (n + 1) response' present
    refine ⟨commit, member, ?_, answered⟩
    rw [Journal.settle, List.length_append, List.length_singleton]
    omega

/-- The next commit is that of the write after those with answers under way. -/
theorem Backed.commit (backed : j.Backed answers) (fits : j.Fits queue callbacks told)
    {mutations : List Mutation} {response : Response}
    (next : queue[answers.length]? = some batch) (carried : batch.mutations = mutations)
    (sized : response.mutationResults.length = mutations.length)
    (few : answers.length < kMaxPendingWrites) :
    (j.commit answers.length mutations response).Backed (answers ++ [response]) where
  made := fun commit member => by
    rcases List.mem_append.mp member with old | new
    · exact backed.made commit old
    · obtain rfl := List.mem_singleton.mp new
      rw [fits.queue, List.getElem?_map, Option.map_eq_some_iff] at next
      obtain ⟨write, present, rfl⟩ := next
      rw [Journal.pending, List.getElem?_drop] at present
      exact ⟨write, present, carried, sized⟩
  window := fun commit member => by
    rcases List.mem_append.mp member with old | new
    · exact backed.window commit old
    · obtain rfl := List.mem_singleton.mp new
      exact ⟨Nat.le_add_right _ _, Nat.add_lt_add_left few _⟩
  gapless := fun before commit after parts n less => by
    rcases List.eq_nil_or_concat after with rfl | ⟨after, last, rfl⟩
    · obtain ⟨rfl, last⟩ := List.append_inj' parts rfl
      obtain rfl := (List.cons.inj last).1
      simp only at less
      by_cases early : n < j.outcomes.length
      · cases outcome : j.outcomes[n] with
        | acknowledged response' =>
            left
            obtain ⟨commit, member, number, -⟩ := backed.acknowledged n response'
              (by rw [List.getElem?_eq_getElem early, outcome])
            exact ⟨commit, member, number⟩
        | rejected code =>
            right
            exact ⟨code, by rw [Journal.commit, List.getElem?_eq_getElem early, outcome]⟩
      · left
        have inside : n - j.outcomes.length < answers.length := by omega
        obtain ⟨commit, member, number, -⟩ := backed.awaited _ _
          (List.getElem?_eq_getElem inside)
        exact ⟨commit, member, by omega⟩
    · rw [Journal.commit, List.concat_eq_append, ← List.cons_append, ← List.append_assoc] at parts
      exact backed.gapless before commit after (List.append_inj' parts rfl).1 n less
  acknowledged := fun n response' present => by
    obtain ⟨commit, member, rest⟩ := backed.acknowledged n response' present
    exact ⟨commit, List.mem_append_left _ member, rest⟩
  awaited := fun n response' present => by
    rw [List.getElem?_append] at present
    split at present
    · obtain ⟨commit, member, rest⟩ := backed.awaited n response' present
      exact ⟨commit, List.mem_append_left _ member, rest⟩
    · rename_i outside
      rw [List.getElem?_singleton] at present
      split at present
      · obtain rfl := Option.some.inj present
        refine ⟨_, List.mem_append_right _ (List.mem_singleton_self _), ?_, rfl⟩
        simp only [Journal.commit]
        omega
      · cases present

end Journal

namespace FirestoreClient

/-! ## The journals of all users -/

/-- The client fits the journals. -/
def Accounted (past : Past) (s : FirestoreClient) : Prop :=
  ∀ user, (past user).Fits (s.store.mutations.queue user) (s.mutationCallbacks user) (s.told user)

variable {s t : FirestoreClient} {past : Past}

theorem Accounted.written (accounted : Accounted past s) (resting : s.Resting)
    (mutations : List Mutation) (nonempty : mutations ≠ []) (ticket : Ticket) :
    Accounted (Function.update past s.store.user ((past s.store.user).write
        (s.store.writeLocally mutations nonempty).1 ticket))
      (s.enqueued mutations nonempty ticket) := by
  intro user
  change Journal.Fits _ (Mutations.queue (s.store.mutations.addMutationBatch s.store.user _) user)
    (Function.update s.mutationCallbacks s.store.user _ user) (s.told user)
  rw [Mutations.queue_addMutationBatch]
  by_cases mine : user = s.store.user
  · subst mine
    rw [Function.update_self, Function.update_self, if_pos rfl]
    apply (accounted s.store.user).write ticket
    intro earlier member
    exact resting.numbered.below _ (Mutations.mem_queue.mp member)
  · rw [Function.update_of_ne mine, Function.update_of_ne mine, if_neg (Ne.symm mine),
      List.append_nil]
    exact accounted user

theorem Accounted.settled (accounted : Accounted past s) (resting : s.Resting)
    {batch : MutationBatch} {rest : List MutationBatch} {status : Status} (outcome : Outcome)
    (settled : outcome.status = status) (settles : Settles s t batch rest status) :
    Accounted (Function.update past s.store.user ((past s.store.user).settle outcome)) t := by
  subst settled
  intro user
  have queued : s.store.mutations.queue s.store.user = batch :: rest := settles.head
  rw [settles.removed.queues, settles.mutationCallbacks, settles.told]
  by_cases mine : user = s.store.user
  · subst mine
    have fits := accounted s.store.user
    have increasing := resting.numbered.queue s.store.user
    rw [queued] at fits increasing
    rw [Function.update_self, Function.update_self, if_pos rfl]
    simpa using fits.settle outcome increasing
  · rw [Function.update_of_ne mine, Function.update_of_ne mine, if_neg (Ne.symm mine)]
    simpa [mine] using accounted user

theorem Accounted.same (accounted : Accounted past s) (mutations : t.store.mutations = s.store.mutations)
    (callbacks : t.mutationCallbacks = s.mutationCallbacks) (told : t.told = s.told) :
    Accounted past t := by
  intro user
  rw [mutations, callbacks, told]
  exact accounted user

theorem storeAfter_mutations (s : FirestoreClient) (a : Action) :
    (s.storeAfter a).mutations = s.store.mutations := by
  cases a with
  | credentialChange user =>
      simp only [storeAfter, ofUser]
      split <;> rfl
  | _ => rfl

theorem Accounted.step (accounted : Accounted past s) (resting : s.Resting) {a : Action}
    (changes : s.Changes a t) : Accounted (record (.ok s) a past) t := by
  unfold Changes at changes
  unfold record
  cases happened : s.occurrence a with
  | none =>
      simp only [happened] at changes ⊢
      exact accounted.same ((congrArg LocalStore.mutations changes.1.store).trans
        (storeAfter_mutations s a)) changes.1.mutationCallbacks changes.1.told
  | some occurrence =>
      cases occurrence with
      | written ticket mutations =>
          simp only [happened] at changes ⊢
          obtain ⟨⟨nonempty, same⟩, -⟩ := changes
          rw [dif_pos nonempty]
          exact (accounted.written resting mutations nonempty ticket).same
            (congrArg LocalStore.mutations same.store) same.mutationCallbacks same.told
      | committed mutations response =>
          simp only [happened] at changes ⊢
          obtain ⟨same, -⟩ := changes
          apply Accounted.same (s := s) _ (congrArg LocalStore.mutations same.store)
            same.mutationCallbacks same.told
          intro user
          by_cases mine : user = s.store.user
          · subst mine
            rw [Function.update_self]
            exact (accounted s.store.user).commit _ _ _
          · rw [Function.update_of_ne mine]
            exact accounted user
      | acknowledged response =>
          simp only [happened] at changes ⊢
          obtain ⟨batch, rest, settles, -⟩ := changes
          exact accounted.settled resting (.acknowledged response) rfl settles
      | rejected code =>
          simp only [happened] at changes ⊢
          obtain ⟨⟨batch, rest, settles⟩, -⟩ := changes
          exact accounted.settled resting (.rejected code) rfl settles
      | relaunched user =>
          simp only [happened] at changes ⊢
          obtain ⟨store, callbacks, told, -⟩ := changes
          intro other
          rw [store, callbacks, told]
          exact (accounted other).forget

/-- The answers under way are to commits of the current user's writes. -/
def Committed (past : Past) (s : FirestoreClient) : Prop :=
  ∀ user, (past user).Backed (if user = s.store.user then s.answers else [])

theorem Committed.lost (committed : Committed past s) (user : User) : (past user).Backed [] :=
  (committed user).lost

theorem Committed.mine (committed : Committed past s) : (past s.store.user).Backed s.answers := by
  have mine := committed s.store.user
  rwa [if_pos rfl] at mine

/-- Only the journal of the current user changes with the answers. -/
theorem Committed.update (committed : Committed past s) {j : Journal}
    (user : t.store.user = s.store.user) (backed : j.Backed t.answers) :
    Committed (Function.update past s.store.user j) t := by
  intro other
  by_cases mine : other = s.store.user
  · rw [mine, Function.update_self, if_pos user.symm]
    exact backed
  · rw [Function.update_of_ne mine, if_neg (by rw [user]; exact mine)]
    exact committed.lost other

theorem Committed.step (committed : Committed past s) (accounted : Accounted past s) {a : Action}
    (changes : s.Changes a t) : Committed (record (.ok s) a past) t := by
  unfold Changes at changes
  unfold record
  cases happened : s.occurrence a with
  | none =>
      simp only [happened] at changes ⊢
      obtain ⟨-, silent | ⟨same, user⟩⟩ := changes
      · intro other
        rw [silent, ite_self]
        exact committed.lost other
      · intro other
        rw [same, user]
        exact committed other
  | some occurrence =>
      cases occurrence with
      | written ticket mutations =>
          simp only [happened] at changes ⊢
          obtain ⟨⟨nonempty, same⟩, answers⟩ := changes
          rw [dif_pos nonempty]
          have user : t.store.user = s.store.user := by
            rw [same.store]
            rfl
          apply committed.update user
          rw [answers]
          exact committed.mine.write _ _
      | committed mutations response =>
          simp only [happened] at changes ⊢
          obtain ⟨same, answers, sized, few, batch, next, carried⟩ := changes
          apply committed.update (congrArg LocalStore.user same.store)
          rw [answers]
          exact committed.mine.commit (accounted s.store.user) next carried sized few
      | acknowledged response =>
          simp only [happened] at changes ⊢
          obtain ⟨batch, rest, settles, -, -, answers⟩ := changes
          apply committed.update settles.removed.user
          have mine := committed.mine
          rw [answers] at mine
          exact mine.acknowledge
      | rejected code =>
          simp only [happened] at changes ⊢
          obtain ⟨⟨batch, rest, settles⟩, -, answers⟩ := changes
          apply committed.update settles.removed.user
          rw [answers]
          exact committed.mine.reject code
      | relaunched user =>
          simp only [happened] at changes ⊢
          obtain ⟨-, -, -, answers⟩ := changes
          intro other
          rw [answers, ite_self]
          exact (committed other).forget

/-! ## Runs -/

open Transition

/-- What holds between the events of a run. -/
structure Sound (past : Past) (s : FirestoreClient) : Prop where
  resting : s.Resting
  accounted : Accounted past s
  committed : Committed past s

def Past.blank : Past := fun _ => .blank

theorem installed_sound (user : User) :
    ∃ s, System.installed user = .ok s ∧ Sound Past.blank s ∧ s.store = LocalStore.empty user := by
  have numbered : Mutations.Numbered [] 1 :=
    ⟨.nil, fun _ member => (List.not_mem_nil member).elim,
      fun _ member => (List.not_mem_nil member).elim, Int.one_pos⟩
  obtain ⟨s, launched, rests, -, store, callbacks, told, unopened⟩ :=
    launch_spec user (LocalStore.empty user) numbered
  refine ⟨s, launched, ⟨rests, ?_, ?_⟩, store⟩
  · intro other
    rw [store, callbacks, told]
    exact Journal.blank_fits
  · intro other
    rw [rests.answers_unopened unopened, ite_self]
    exact Journal.blank_backed

theorem Sound.step (sound : Sound past s) {a : Action} (taken : System.step (.ok s) a = some (.ok t)) :
    Sound (record (.ok s) a past) t := by
  obtain ⟨rests, changes⟩ := step_spec sound.resting taken
  exact ⟨rests, sound.accounted.step sound.resting changes,
    sound.committed.step sound.accounted changes⟩

/-- The journals fit every state that a run passes through. -/
theorem sound_always {user : User} {actions : List Action} {r : System}
    (run : Runs System.step (System.installed user) actions r) :
    Always System.step record (fun past r => ∀ s, r = .ok s → Sound past s) Past.blank
      (System.installed user) actions := by
  apply run.always (fun past r => ∀ s, r = .ok s → Sound past s)
  case keeps =>
    rintro past (message | s) a r' sound taken t rfl
    · cases taken
    · exact (sound s rfl).step taken
  case start =>
    intro s started
    obtain ⟨s', started', sound, -⟩ := installed_sound user
    obtain rfl := Except.ok.inj (started.symm.trans started')
    exact sound

end FirestoreClient

end DogFoodTracker.Core
