import DogFoodTracker.Core.Guarantees

/-! # Users see their own writes

What a user sees of a document is the cached document with the user's pending writes over
it. An answer that is newer than the cache changes nothing that is seen, so as long as the
backend has nothing to say of a document, its user sees their own writes and nothing else.
-/

namespace DogFoodTracker.Core

open Transition FirestoreClient

/-- What the program writes is as the API has it. -/
def Action.Plain : Action → Prop
  | .write _ mutations => ∀ mutation ∈ mutations, mutation.Plain
  | _ => True

instance (a : Action) : Decidable a.Plain :=
  match a with
  | .write _ mutations => inferInstanceAs (Decidable (∀ mutation ∈ mutations, mutation.Plain))
  | .enableNetwork | .disableNetwork | .connectivityChange | .credentialChange _ | .relaunch _
  | .streamStart | .authFailed _ | .streamRead | .streamFinish _ | .backoffElapsed | .idleTimeout
  | .serve _ | .remoteEvent _ | .collectGarbage _ => isTrue trivial

/-- What a write asks of the data of a document. -/
def writeEffect (mutations : List Mutation) (key : DocumentKey) (data : Option ObjectValue) :
    Option ObjectValue :=
  mutations.foldl (fun data mutation => if mutation.key = key then mutation.effect data else data)
    data

/-- The answer is news for the cached document. -/
def FirestoreClient.news (s : FirestoreClient) (response : Response) (key : DocumentKey) : Bool :=
  s.store.queue.head?.all fun batch =>
    (MutationBatchResult.docVersion ⟨batch, response.commitVersion, response.mutationResults⟩
      key).all (LocalStore.outdated (s.store.remoteDocuments key))

variable {user : User} {actions later : List Action} {s t : FirestoreClient} {key : DocumentKey}
  {a : Action}

theorem LocalStore.Plain.same {before after : LocalStore} (plain : before.Plain)
    (mutations : after.mutations = before.mutations) : after.Plain := by
  rw [LocalStore.Plain, mutations]
  exact plain

theorem LocalStore.Plain.step (resting : s.Resting) (plain : s.store.Plain) (mine : a.Plain)
    (taken : System.step (.ok s) a = some (.ok t)) : t.store.Plain := by
  have changes := (step_spec resting taken).2
  unfold Changes at changes
  cases happened : s.occurrence a with
  | none =>
      simp only [happened] at changes
      exact plain.same ((congrArg LocalStore.mutations changes.1.store).trans
        (storeAfter_mutations s a))
  | some occurrence =>
      cases occurrence with
      | written ticket mutations =>
          simp only [happened] at changes
          obtain ⟨⟨nonempty, same⟩, -⟩ := changes
          obtain rfl := occurrence_written happened
          rw [same.store]
          exact plain.writeLocally nonempty mine
      | committed mutations response =>
          simp only [happened] at changes
          rw [changes.1.store]
          exact plain
      | acknowledged response =>
          simp only [happened] at changes
          obtain ⟨batch, rest, settles, -⟩ := changes
          exact settles.removed.plain settles.head plain
      | rejected code =>
          simp only [happened] at changes
          obtain ⟨⟨batch, rest, settles⟩, -⟩ := changes
          exact settles.removed.plain settles.head plain
      | relaunched user =>
          simp only [happened] at changes
          rw [changes.1]
          exact plain

theorem plain_run (run : Runs System.step (System.installed user) actions (.ok s))
    (mine : ∀ a ∈ actions, a.Plain) : s.store.Plain := by
  let kept : System → Prop :=
    fun r => ∀ s : FirestoreClient, r = .ok s → s.Resting ∧ s.store.Plain
  have keeps : ∀ (r : System) (a : Action) (r' : System), kept r → a.Plain →
      System.step r a = some r' → kept r' := by
    rintro (message | s) a r' before mine taken t rfl
    · cases taken
    · obtain ⟨resting, plain⟩ := before s rfl
      exact ⟨(step_spec resting taken).1, plain.step resting mine taken⟩
  have start : kept (System.installed user) := by
    intro s started
    obtain ⟨s', started', sound, store⟩ := installed_sound user
    obtain rfl := Except.ok.inj (started.symm.trans started')
    refine ⟨sound.resting, ?_⟩
    rw [store]
    exact fun _ member => (List.not_mem_nil member).elim
  exact (run.invariant_throughout kept keeps (Runs.throughout_of_forall mine) start s rfl).2

/-- What an event changes of what is seen. -/
theorem seen_step (resting : s.Resting) (plain : s.store.Plain) (mine : a.Plain)
    (taken : System.step (.ok s) a = some (.ok t)) (key : DocumentKey) :
    match s.occurrence a with
    | some (.written _ mutations) =>
        t.store.seen key = writeEffect mutations key (s.store.seen key)
    | some (.committed _ _) => t.store.seen key = s.store.seen key
    | some (.acknowledged response) =>
        s.news response key = true → t.store.seen key = s.store.seen key
    | some (.rejected _) =>
        t.store.seen key = LocalStore.pendingEffect s.store.queue.tail key
          (contents (s.store.remoteDocuments key))
    | some (.relaunched user) =>
        t.store.seen key = LocalStore.pendingEffect (s.store.mutations.queue user) key
          (contents (s.store.remoteDocuments key))
    | none => t.store.seen key = (s.storeAfter a).seen key := by
  have plain' := plain.step resting mine taken
  have changes := (step_spec resting taken).2
  unfold Changes at changes
  cases happened : s.occurrence a with
  | none =>
      simp only [happened] at changes ⊢
      rw [changes.1.store]
      rfl
  | some occurrence =>
      cases occurrence with
      | written ticket mutations =>
          simp only [happened] at changes ⊢
          obtain ⟨⟨nonempty, same⟩, -⟩ := changes
          obtain rfl := occurrence_written happened
          rw [same.store]
          exact LocalStore.seen_writeLocally plain mutations nonempty mine key
      | committed mutations response =>
          simp only [happened] at changes ⊢
          rw [changes.1.store]
      | acknowledged response =>
          simp only [happened] at changes ⊢
          obtain ⟨batch, rest, settles, sized, acknowledged, -⟩ := changes
          intro news
          rw [LocalStore.seen_acknowledgeBatch plain resting.numbered _ settles.head sized
            acknowledged, if_pos]
          simpa [FirestoreClient.news, settles.head] using news
      | rejected code =>
          simp only [happened] at changes ⊢
          obtain ⟨⟨batch, rest, settles⟩, cache, -⟩ := changes
          rw [plain'.seen, settles.removed.queue, settles.head, cache, List.tail_cons]
      | relaunched user =>
          simp only [happened] at changes ⊢
          rw [plain'.seen, changes.1]
          rfl

/-- Nothing but the user's own writes has a say in what is seen of the document. -/
def undisturbed (key : DocumentKey) : System → Action → Bool
  | .error _, _ => false
  | .ok s, a =>
      match s.occurrence a with
      | some (.rejected _) => false
      | some (.acknowledged response) => s.news response key
      | some (.relaunched user) => user = s.store.user
      | some _ => true
      | none =>
          match a with
          | .credentialChange user => user = s.store.user
          | .remoteEvent event => (event.documentUpdates.lookup key).isNone
          | .collectGarbage other => other ≠ key
          | _ => true

def Action.written : Action → Option (List Mutation)
  | .write _ mutations => some mutations
  | _ => none

/-- An event that is not about the document leaves it as it is seen. -/
theorem seen_storeAfter (plain : s.store.Plain) (alone : undisturbed key (.ok s) a = true)
    (nothing : s.occurrence a = none) :
    (s.storeAfter a).user = s.store.user ∧ (s.storeAfter a).seen key = s.store.seen key := by
  simp only [undisturbed, nothing] at alone
  have plain' : (s.storeAfter a).Plain := plain.same (storeAfter_mutations s a)
  cases a with
  | credentialChange user =>
      have unchanged : s.storeAfter (.credentialChange user) = s.store := by
        rw [decide_eq_true_eq] at alone
        rw [storeAfter, ofUser, alone, if_neg (not_not.mpr rfl)]
      rw [unchanged]
      exact ⟨rfl, rfl⟩
  | remoteEvent event =>
      refine ⟨rfl, ?_⟩
      have cached : (s.store.afterEvent event).remoteDocuments key = s.store.remoteDocuments key := by
        simp only [LocalStore.afterEvent, LocalStore.updatedBy, Option.isNone_iff_eq_none.mp alone]
      rw [plain'.seen, plain.seen, storeAfter, cached]
      rfl
  | collectGarbage other =>
      refine ⟨rfl, ?_⟩
      rw [plain'.seen, plain.seen, storeAfter]
      rw [decide_eq_true_eq] at alone
      simp only
      rw [Function.update_of_ne (Ne.symm alone)]
      rfl
  | _ => exact ⟨rfl, rfl⟩

theorem user_written (resting : s.Resting) (alone : undisturbed key (.ok s) a = true)
    (plain : s.store.Plain) (taken : System.step (.ok s) a = some (.ok t)) :
    t.store.user = s.store.user := by
  have changes := (step_spec resting taken).2
  unfold Changes at changes
  cases happened : s.occurrence a with
  | none =>
      simp only [happened] at changes
      rw [changes.1.store]
      exact (seen_storeAfter plain alone happened).1
  | some occurrence =>
      cases occurrence with
      | written ticket mutations =>
          simp only [happened] at changes
          obtain ⟨⟨nonempty, same⟩, -⟩ := changes
          rw [same.store]
          rfl
      | committed mutations response =>
          simp only [happened] at changes
          rw [changes.1.store]
      | acknowledged response =>
          simp only [happened] at changes
          obtain ⟨batch, rest, settles, -⟩ := changes
          exact settles.removed.user
      | rejected code =>
          simp only [happened] at changes
          obtain ⟨⟨batch, rest, settles⟩, -⟩ := changes
          exact settles.removed.user
      | relaunched user =>
          simp only [undisturbed, happened, decide_eq_true_eq] at changes alone
          rw [changes.1]
          exact alone

theorem seen_written (resting : s.Resting) (plain : s.store.Plain) (mine : a.Plain)
    (alone : undisturbed key (.ok s) a = true) (taken : System.step (.ok s) a = some (.ok t)) :
    t.store.seen key =
      a.written.elim (s.store.seen key) fun mutations =>
        writeEffect mutations key (s.store.seen key) := by
  have seen := seen_step resting plain mine taken key
  -- Only a write is a write.
  have others : ∀ occurrence, s.occurrence a = some occurrence →
      (∀ ticket mutations, occurrence ≠ .written ticket mutations) → a.written = none := by
    intro occurrence happened other
    cases a with
    | write ticket mutations =>
        exact absurd (Option.some.inj happened).symm (other ticket mutations)
    | _ => rfl
  cases happened : s.occurrence a with
  | none =>
      simp only [happened] at seen
      have silent : a.written = none := by
        cases a with
        | write ticket mutations => cases happened
        | _ => rfl
      rw [silent, seen]
      exact (seen_storeAfter plain alone happened).2
  | some occurrence =>
      cases occurrence with
      | written ticket mutations =>
          simp only [happened] at seen
          obtain rfl := occurrence_written happened
          exact seen
      | committed mutations response =>
          simp only [happened] at seen
          rw [others _ happened (by rintro _ _ ⟨⟩)]
          exact seen
      | acknowledged response =>
          simp only [undisturbed, happened] at seen alone
          rw [others _ happened (by rintro _ _ ⟨⟩)]
          exact seen alone
      | rejected code =>
          simp only [undisturbed, happened, Bool.false_eq_true] at alone
      | relaunched user =>
          simp only [undisturbed, happened, decide_eq_true_eq] at seen alone
          rw [others _ happened (by rintro _ _ ⟨⟩), seen, plain.seen, alone]
          rfl

/-- A user sees their own writes, in order, as if there were no backend. -/
theorem own_writes_seen (run : Runs System.step (System.installed user) actions (.ok s))
    (more : Runs System.step (.ok s) later (.ok t)) (mine : ∀ a ∈ actions ++ later, a.Plain)
    (alone : Throughout System.step (fun r a => undisturbed key r a = true) (.ok s) later) :
    t.store.user = s.store.user ∧
      t.store.seen key = (later.filterMap Action.written).foldl
        (fun data mutations => writeEffect mutations key data) (s.store.seen key) := by
  have resting := (journal_sound run).resting
  have plain := plain_run run fun a member => mine a (List.mem_append_left _ member)
  replace mine : ∀ a ∈ later, a.Plain := fun a member => mine a (List.mem_append_right _ member)
  clear run
  generalize begun : (Except.ok s : System) = r at more alone
  generalize ended : (Except.ok t : System) = r' at more
  induction more generalizing s with
  | done =>
      subst begun
      obtain rfl := Except.ok.inj ended
      exact ⟨rfl, rfl⟩
  | @next r a r₁ rest r' taken more ih =>
      subst begun ended
      cases r₁ with
      | error message =>
          cases more with
          | next impossible _ => cases impossible
      | ok s₁ =>
          have plainly := mine a List.mem_cons_self
          have now := alone.1
          obtain ⟨same, seen⟩ := ih (step_spec resting taken).1 (plain.step resting plainly taken)
            (fun b member => mine b (List.mem_cons_of_mem _ member)) rfl (alone.2 _ taken) rfl
          refine ⟨same.trans (user_written resting now plain taken), ?_⟩
          rw [seen, seen_written resting plain plainly now taken, List.filterMap_cons]
          cases a.written <;> rfl

/-- The network goes down and comes back, and another write is made in between. -/
def offline : List Action :=
  [.streamRead, .disableNetwork,
    .write 3 [.patch ["pets", "rex"] [("breakfast", .primitive (.boolean false))] [["breakfast"]]
      (.exists true)],
    .enableNetwork, .streamStart]

theorem own_writes_seen_offline : ∃ s t,
    replay System.step (System.installed "ann") feeding = some (.ok s) ∧
    replay System.step (.ok s) offline = some (.ok t) ∧
    t.store.user = s.store.user ∧
      t.store.seen ["pets", "rex"] = (offline.filterMap Action.written).foldl
        (fun data mutations => writeEffect mutations ["pets", "rex"] data)
        (s.store.seen ["pets", "rex"]) :=
  ⟨_, _, rfl, rfl, own_writes_seen
    (show Runs System.step (System.installed "ann") feeding _ from Runs.of_replay rfl)
    (show Runs System.step _ offline _ from Runs.of_replay rfl) (by decide) (by decide)⟩

end DogFoodTracker.Core
