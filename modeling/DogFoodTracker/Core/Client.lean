import DogFoodTracker.Core.WriteStream
import DogFoodTracker.Transition.History

/-! # The client among its events

The client's queue runs one thing at a time: what the program asks for, what the network
and the backend do, a new user, a new process on the same device. Every interleaving of
them is a run. An assertion that fails ends the process.
-/

namespace DogFoodTracker.Core

open Transition

/-- The backend gives every mutation of a write a result. -/
def Request.answeredBy : Request → Response → Bool
  | .handshake, _ => true
  | .write mutations, response => response.mutationResults.length = mutations.length

inductive Action where
  | write (ticket : Ticket) (mutations : List Mutation)
  | enableNetwork
  | disableNetwork
  /-- The device has another network than before. -/
  | connectivityChange
  | credentialChange (user : User)
  /-- The process has ended and another one starts. -/
  | relaunch (user : User)
  | streamStart
  /-- There is no token to start the stream with. -/
  | authFailed (code : ErrorCode)
  | streamRead
  | streamFinish (status : Status)
  | backoffElapsed
  | idleTimeout
  /-- The backend answers the oldest request it has not answered. -/
  | serve (response : Response)
  | remoteEvent (event : RemoteEvent)
  | collectGarbage (key : DocumentKey)

namespace FirestoreClient

def withStore (s : FirestoreClient) (store : LocalStore) : FirestoreClient := { s with store }

/-- What an action does; `none` when it cannot happen. -/
def react (s : FirestoreClient) : Action → Option (Except String FirestoreClient)
  | .write ticket mutations =>
      if nonempty : mutations ≠ [] then some (s.writeLocally mutations nonempty ticket) else none
  | .enableNetwork => some s.enableNetwork
  | .disableNetwork => some s.disableNetwork
  | .connectivityChange => some (if s.isNetworkEnabled then s.restartNetwork else .ok s)
  | .credentialChange user => some (s.handleCredentialChange user)
  | .relaunch user => some (launch user s.store)
  | .streamStart => if s.stream.state = .starting then some s.onStreamStart else none
  | .authFailed code => if s.stream.state = .starting then some (s.close (.error code)) else none
  | .streamRead =>
      match s.call.responses with
      | [] => none
      | response :: responses =>
          some (onStreamRead { s with call := { s.call with responses } } response)
  | .streamFinish status => if s.isOpen then some (s.close status) else none
  | .backoffElapsed => if s.stream.state = .backoff then some s.onBackoffElapsed else none
  | .idleTimeout => if s.stream.idlenessTimer then some (s.close .ok) else none
  | .serve response =>
      match s.call.requests with
      | [] => none
      | request :: requests =>
          if request.answeredBy response then
            some (.ok { s with call := ⟨requests, s.call.responses ++ [response]⟩ })
          else none
  | .remoteEvent event => some do return s.withStore (← s.store.applyRemoteEvent event)
  | .collectGarbage key =>
      if s.store.mutations.any (·.2.affects key) then none
      else some (.ok (s.withStore { s.store with
        remoteDocuments := Function.update s.store.remoteDocuments key none }))

end FirestoreClient

/-- A client, or the assertion that has ended it. -/
abbrev System := Except String FirestoreClient

namespace System

def step : System → Action → Option System
  | .error _, _ => none
  | .ok s, a => s.react a

/-- The first process of a new installation. -/
def installed (user : User) : System := FirestoreClient.launch user (LocalStore.empty user)

end System

namespace FirestoreClient

variable {s : FirestoreClient}

/-! ## The network -/

/-- The answers to writes that have not reached the client yet. -/
def answers (s : FirestoreClient) : List Response :=
  if s.stream.handshakeComplete then s.call.responses else []

theorem Resting.answers_unopened (resting : s.Resting) (unopened : s.isOpen = false) :
    s.answers = [] := by
  rw [answers, resting.quiet unopened]
  split <;> rfl

/-- The client without a network. -/
structure Down (s : FirestoreClient) : Prop where
  isNetworkEnabled : s.isNetworkEnabled = false
  writePipeline : s.writePipeline = []
  stopped : s.isStarted = false
  handshakeComplete : s.stream.handshakeComplete = false
  idlenessTimer : s.stream.idlenessTimer = false
  call : s.call = Call.quiet

theorem Down.resting (down : s.Down) (numbered : s.store.mutations.Numbered s.store.nextBatchId) :
    s.Resting where
  numbered := numbered
  oldest := by rw [down.writePipeline]; exact List.nil_prefix
  short := by rw [down.writePipeline]; exact Nat.zero_le _
  greeting := fun opened => absurd (isOpen_started opened) (by simp [down.stopped])
  correlated := fun opened => absurd (isOpen_started opened) (by simp [down.stopped])
  quiet := fun _ => down.call
  idle := fun timer => absurd (down.idlenessTimer.symm.trans timer) Bool.false_ne_true
  waiting := fun started => absurd (down.stopped.symm.trans started) Bool.false_ne_true
  full := fun enabled => absurd (down.isNetworkEnabled.symm.trans enabled) Bool.false_ne_true
  off := fun _ => ⟨down.writePipeline, down.stopped⟩
  running := by simp [shouldStartWriteStream, down.isNetworkEnabled]
  shaken := fun shaken => absurd (down.handshakeComplete.symm.trans shaken) Bool.false_ne_true

theorem Resting.unshaken (resting : s.Resting) (unopened : s.isOpen = false) :
    s.stream.handshakeComplete = false := by
  by_contra shaken
  have opened := resting.shaken (by simpa using shaken)
  rw [unopened] at opened
  cases opened

theorem Resting.untimed (resting : s.Resting) (unopened : s.isOpen = false) :
    s.stream.idlenessTimer = false := by
  by_contra timer
  have opened := (resting.idle (by simpa using timer)).1
  rw [unopened] at opened
  cases opened

theorem disableNetwork_spec (resting : s.Resting) (store : LocalStore) :
    ∃ t, (s.withStore store).disableNetwork = .ok t ∧ t.Down ∧ SameLocal (s.withStore store) t := by
  let off : FirestoreClient := { s.withStore store with isNetworkEnabled := false }
  by_cases started : s.isStarted = true
  · have needless : (off.closed .ok).shouldStartWriteStream = false := rfl
    have stopped : off.close .ok = .ok { off.closed .ok with
        stream := { (off.closed .ok).stream with handshakeComplete := false } } := by
      rw [close_eq (s := off) started]
      simp only [onWriteStreamClose, handleClose, needless, hardAssert, if_true, bind, Except.bind]
      rfl
    simp only [disableNetwork, bind, Except.bind]
    rw [show close { s.withStore store with isNetworkEnabled := false } .ok = off.close .ok from rfl,
      stopped]
    exact ⟨_, rfl, ⟨rfl, rfl, closed_stopped off .ok, rfl, rfl, rfl⟩, rfl, rfl, rfl⟩
  · have unstarted : s.isStarted = false := by simpa using started
    have stopped : off.isStarted = false := unstarted
    have unopened : s.isOpen = false := not_open_of_stopped unstarted
    have same : off.close .ok = .ok off := by
      rw [close, if_pos ⟨rfl, stopped⟩]
    simp only [disableNetwork, bind, Except.bind]
    rw [show close { s.withStore store with isNetworkEnabled := false } .ok = off.close .ok from rfl,
      same]
    exact ⟨_, rfl, ⟨rfl, rfl, stopped, resting.unshaken unopened, resting.untimed unopened,
      resting.quiet unopened⟩, rfl, rfl, rfl⟩

theorem enableNetwork_spec (resting : s.Resting) :
    ∃ t, s.enableNetwork = .ok t ∧ t.Resting ∧ t.isNetworkEnabled = true ∧ SameLocal s t ∧
      t.isOpen = s.isOpen ∧ t.answers = s.answers := by
  let on : FirestoreClient := { s with isNetworkEnabled := true }
  have consistent : on.Consistent :=
    ⟨resting.numbered, resting.oldest, resting.short, resting.greeting, resting.correlated,
      resting.quiet, resting.idle, resting.waiting⟩
  obtain ⟨t, filled, kept, front, same, running, isOpen, shaken⟩ :=
    fillWritePipeline_spec consistent rfl
  refine ⟨t, filled, ?_, same.isNetworkEnabled,
    ⟨same.store, same.mutationCallbacks, same.told⟩, isOpen, ?_⟩
  · exact
      { kept with
        full := fun _ => by rw [same.store]; exact front
        off := fun disabled => by cases same.isNetworkEnabled.symm.trans disabled
        running := running
        shaken := fun complete => by
          rw [isOpen]
          exact resting.shaken (shaken.symm.trans complete) }
  · rw [answers, answers, shaken, same.responses]

theorem restartNetwork_spec (resting : s.Resting) (store : LocalStore)
    (numbered : store.mutations.Numbered store.nextBatchId) :
    ∃ t, (s.withStore store).restartNetwork = .ok t ∧ t.Resting ∧ t.isNetworkEnabled = true ∧
      SameLocal (s.withStore store) t ∧ t.isOpen = false := by
  obtain ⟨u, disabled, down, same⟩ := disableNetwork_spec resting store
  have calm : u.inhibitBackoff = .ok (u.withState .initial) := by
    simp only [inhibitBackoff, hardAssert, down.stopped, if_true, bind, Except.bind]
    rfl
  have down' : (u.withState .initial).Down :=
    ⟨down.isNetworkEnabled, down.writePipeline, rfl, down.handshakeComplete, down.idlenessTimer,
      down.call⟩
  have numbered' : u.store.mutations.Numbered u.store.nextBatchId := by
    rw [same.store]
    exact numbered
  obtain ⟨t, enabled, rests, network, same', isOpen, -⟩ :=
    enableNetwork_spec (down'.resting numbered')
  refine ⟨t, ?_, rests, network, ⟨same'.store.trans same.store,
    same'.mutationCallbacks.trans same.mutationCallbacks, same'.told.trans same.told⟩, isOpen⟩
  simp only [restartNetwork, disabled, calm, bind, Except.bind]
  exact enabled

theorem handleUserChange_numbered {store : LocalStore} (user : User)
    (numbered : store.mutations.Numbered store.nextBatchId) :
    (store.handleUserChange user).mutations.Numbered (store.handleUserChange user).nextBatchId :=
  numbered.loadNextBatchId

/-- The queue of the user who signs in. -/
def ofUser (store : LocalStore) (user : User) : LocalStore :=
  if store.user ≠ user then store.handleUserChange user else store

theorem handleCredentialChange_spec (resting : s.Resting) (user : User) :
    ∃ t, s.handleCredentialChange user = .ok t ∧ t.Resting ∧
      SameLocal (s.withStore (ofUser s.store user)) t ∧ t.isOpen = false := by
  have changed : (if s.store.user ≠ user then { s with store := s.store.handleUserChange user }
      else s) = s.withStore (ofUser s.store user) := by
    unfold ofUser
    split <;> rfl
  have numbered : (ofUser s.store user).mutations.Numbered (ofUser s.store user).nextBatchId := by
    unfold ofUser
    split
    · exact handleUserChange_numbered user resting.numbered
    · exact resting.numbered
  simp only [handleCredentialChange, changed]
  change ∃ t, (if s.isNetworkEnabled = true then _ else _) = _ ∧ _
  by_cases enabled : s.isNetworkEnabled = true
  · rw [if_pos enabled]
    obtain ⟨t, restarted, rests, -, same, unopened⟩ :=
      restartNetwork_spec resting (ofUser s.store user) numbered
    exact ⟨t, restarted, rests, same, unopened⟩
  · have disabled : s.isNetworkEnabled = false := by simpa using enabled
    rw [if_neg enabled]
    obtain ⟨empty, stopped⟩ := resting.off disabled
    have unopened := not_open_of_stopped stopped
    have down : (s.withStore (ofUser s.store user)).Down :=
      { isNetworkEnabled := disabled
        writePipeline := empty
        stopped := stopped
        handshakeComplete := resting.unshaken unopened
        idlenessTimer := resting.untimed unopened
        call := resting.quiet unopened }
    exact ⟨_, rfl, down.resting numbered, .refl _, unopened⟩

theorem launch_spec (user : User) (store : LocalStore) {next : Int}
    (numbered : store.mutations.Numbered next) :
    ∃ t, launch user store = .ok t ∧ t.Resting ∧ t.isNetworkEnabled = true ∧
      t.store = LocalStore.start { store with user } ∧ t.mutationCallbacks = (fun _ _ => none) ∧
      t.told = (fun _ => []) ∧ t.isOpen = false := by
  have down : Down
      { store := LocalStore.start { store with user }
        mutationCallbacks := fun _ _ => none
        told := fun _ => []
        isNetworkEnabled := false
        writePipeline := []
        stream := ⟨.initial, false, false⟩
        call := Call.quiet } := ⟨rfl, rfl, rfl, rfl, rfl, rfl⟩
  obtain ⟨t, launched, rests, network, same, isOpen, -⟩ :=
    enableNetwork_spec (down.resting numbered.loadNextBatchId)
  exact ⟨t, launched, rests, network, same.store, same.mutationCallbacks, same.told, isOpen⟩

end FirestoreClient

end DogFoodTracker.Core
