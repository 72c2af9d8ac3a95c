import DogFoodTracker.Core.LocalStore

/-! # The write stream and its pipeline

The batches of the current user go to the backend over one stream, in order and at most
ten ahead of their answers. The stream opens with a handshake, breaks, backs off and is
started again; the pipeline outlives it. Whatever the source asserts is an error here.
-/

namespace DogFoodTracker.Core

inductive ErrorCode where
  | cancelled
  | unknown
  | invalidArgument
  | deadlineExceeded
  | notFound
  | alreadyExists
  | permissionDenied
  | resourceExhausted
  | failedPrecondition
  | aborted
  | outOfRange
  | unimplemented
  | internal
  | unavailable
  | dataLoss
  | unauthenticated
  deriving DecidableEq, Repr

inductive Status where
  | ok
  | error (code : ErrorCode)
  deriving DecidableEq, Repr

namespace Datastore

def isPermanentError : ErrorCode → Bool
  | .cancelled | .unknown | .deadlineExceeded | .resourceExhausted | .internal | .unavailable
  | .unauthenticated => false
  | .invalidArgument | .notFound | .alreadyExists | .permissionDenied | .failedPrecondition
  | .aborted | .outOfRange | .unimplemented | .dataLoss => true

def isPermanentWriteError (code : ErrorCode) : Bool :=
  isPermanentError code && code ≠ .aborted

end Datastore

inductive StreamState where
  | initial
  | starting
  | opened
  | error
  | backoff
  deriving DecidableEq, Repr

structure WriteStream where
  state : StreamState
  handshakeComplete : Bool
  /-- The timer that stops an idle stream is running. -/
  idlenessTimer : Bool
  deriving DecidableEq, Repr

inductive Request where
  | handshake
  | write (mutations : List Mutation)

/-- Nothing in an answer tells which request it is for. -/
structure Response where
  commitVersion : SnapshotVersion
  mutationResults : List SnapshotVersion
  deriving DecidableEq, Repr

/-- What is under way between the client and the backend. -/
structure Call where
  requests : List Request
  responses : List Response

def Call.quiet : Call := ⟨[], []⟩

/-- The completion of a write; tickets tell completions apart. -/
abbrev Ticket := Nat

/-- The client: its local store, `SyncEngine`'s callbacks and `RemoteStore`'s write side.
    `told` is what the callbacks of each user have been called with, in this process. -/
structure FirestoreClient where
  store : LocalStore
  mutationCallbacks : User → Int → Option Ticket
  told : User → List (Ticket × Status)
  isNetworkEnabled : Bool
  writePipeline : List MutationBatch
  stream : WriteStream
  call : Call

def kMaxPendingWrites : Nat := 10

namespace FirestoreClient

/-! ## The stream -/

def isOpen (s : FirestoreClient) : Bool := s.stream.state = .opened

def isStarted (s : FirestoreClient) : Bool :=
  s.stream.state = .starting || s.stream.state = .backoff || s.isOpen

def shouldStartWriteStream (s : FirestoreClient) : Bool :=
  s.isNetworkEnabled && !s.isStarted && !s.writePipeline.isEmpty

def withState (s : FirestoreClient) (state : StreamState) : FirestoreClient :=
  { s with stream := { s.stream with state } }

def backoffAndTryRestarting (s : FirestoreClient) : Except String FirestoreClient := do
  hardAssert (s.stream.state = .error) "Should only perform backoff in an error case"
  return s.withState .backoff

def startStream (s : FirestoreClient) : Except String FirestoreClient :=
  if s.stream.state = .error then s.backoffAndTryRestarting
  else do
    hardAssert (s.stream.state = .initial) "Already started"
    return s.withState .starting

def inhibitBackoff (s : FirestoreClient) : Except String FirestoreClient := do
  hardAssert (s.isStarted = false) "Can only cancel backoff in a stopped state"
  return s.withState .initial

def markIdle (s : FirestoreClient) : FirestoreClient :=
  if s.isOpen then { s with stream := { s.stream with idlenessTimer := true } } else s

/-- `Stream::Write`, which also cancels the idleness timer. -/
def write (s : FirestoreClient) (request : Request) : Except String FirestoreClient := do
  hardAssert (s.isOpen = true) "Cannot write when the stream is not open."
  return { s with
    stream := { s.stream with idlenessTimer := false }
    call := { s.call with requests := s.call.requests ++ [request] } }

def writeHandshake (s : FirestoreClient) : Except String FirestoreClient := do
  hardAssert (s.isOpen = true) "Writing handshake requires an opened stream"
  hardAssert (s.stream.handshakeComplete = false) "Handshake already completed"
  s.write .handshake

def writeMutations (s : FirestoreClient) (batch : MutationBatch) : Except String FirestoreClient := do
  hardAssert (s.isOpen = true) "Writing mutations requires an opened stream"
  hardAssert (s.stream.handshakeComplete = true)
    "Handshake must be complete before writing mutations"
  s.write (.write batch.mutations)

/-! ## Filling the pipeline -/

def startWriteStream (s : FirestoreClient) : Except String FirestoreClient := do
  hardAssert (s.shouldStartWriteStream = true)
    "StartWriteStream called when ShouldStartWriteStream is false."
  s.startStream

def canAddToWritePipeline (s : FirestoreClient) : Bool :=
  s.isNetworkEnabled && s.writePipeline.length < kMaxPendingWrites

def addToWritePipeline (s : FirestoreClient) (batch : MutationBatch) :
    Except String FirestoreClient := do
  hardAssert (s.canAddToWritePipeline = true) "AddToWritePipeline called when pipeline is full"
  let s := { s with writePipeline := s.writePipeline ++ [batch] }
  if s.isOpen && s.stream.handshakeComplete then s.writeMutations batch else return s

/-- The loop of `FillWritePipeline`; each turn but the last fills one of the slots. -/
def fillSlots : Nat → Int → FirestoreClient → Except String FirestoreClient
  | 0, _, s => .ok s
  | slots + 1, lastBatchIdRetrieved, s =>
      if s.canAddToWritePipeline then
        match s.store.mutations.nextMutationBatchAfterBatchId s.store.user lastBatchIdRetrieved with
        | none => .ok (if s.writePipeline.isEmpty then s.markIdle else s)
        | some batch => do fillSlots slots batch.batchId (← s.addToWritePipeline batch)
      else .ok s

def lastBatchIdRetrieved (s : FirestoreClient) : Int :=
  (s.writePipeline.getLast?.map MutationBatch.batchId).getD kBatchIdUnknown

def fillWritePipeline (s : FirestoreClient) : Except String FirestoreClient := do
  let s ← fillSlots (kMaxPendingWrites - s.writePipeline.length) s.lastBatchIdRetrieved s
  if s.shouldStartWriteStream then s.startWriteStream else return s

/-! ## Answers -/

/-- `NotifyUser`: batches that an earlier process wrote have no callback. -/
def notifyUser (s : FirestoreClient) (batchId : Int) (status : Status) : FirestoreClient :=
  match s.mutationCallbacks s.store.user batchId with
  | none => s
  | some ticket => { s with
      told := Function.update s.told s.store.user (s.told s.store.user ++ [(ticket, status)])
      mutationCallbacks := Function.update s.mutationCallbacks s.store.user
        (Function.update (s.mutationCallbacks s.store.user) batchId none) }

def handleSuccessfulWrite (s : FirestoreClient) (result : MutationBatchResult) :
    Except String FirestoreClient := do
  let s := s.notifyUser result.batch.batchId .ok
  return { s with store := ← s.store.acknowledgeBatch result }

def handleRejectedWrite (s : FirestoreClient) (batchId : Int) (code : ErrorCode) :
    Except String FirestoreClient := do
  let s := { s with store := ← s.store.rejectBatch batchId }
  return s.notifyUser batchId (.error code)

def onWriteStreamMutationResult (s : FirestoreClient) (response : Response) :
    Except String FirestoreClient :=
  match s.writePipeline with
  | [] => .error "Got result for empty write pipeline"
  | batch :: rest => do
      let s := { s with writePipeline := rest }
      hardAssert (batch.mutations.length = response.mutationResults.length)
        "Number of mutations sent must equal results received"
      let s ← s.handleSuccessfulWrite ⟨batch, response.commitVersion, response.mutationResults⟩
      s.fillWritePipeline

/-- Only a permanent error is the batch's own fault. -/
def handleWriteError (s : FirestoreClient) (code : ErrorCode) : Except String FirestoreClient :=
  if Datastore.isPermanentWriteError code then
    match s.writePipeline with
    | [] => .error "front of an empty pipeline"
    | batch :: rest => do
        let s ← inhibitBackoff { s with writePipeline := rest }
        let s ← s.handleRejectedWrite batch.batchId code
        s.fillWritePipeline
  else .ok s

/-! ## Closing and restarting -/

/-- The first half of `OnWriteStreamClose`. Before the handshake is complete an error can
    only cost the stream token. -/
def handleClose (s : FirestoreClient) : Status → Except String FirestoreClient
  | .ok => do
      hardAssert (s.shouldStartWriteStream = false)
        "Write stream was stopped gracefully while still needed."
      return s
  | .error code =>
      if !s.writePipeline.isEmpty && s.stream.handshakeComplete then s.handleWriteError code
      else .ok s

def onWriteStreamClose (s : FirestoreClient) (status : Status) : Except String FirestoreClient := do
  let s ← s.handleClose status
  if s.shouldStartWriteStream then s.startWriteStream else return s

def close (s : FirestoreClient) (status : Status) : Except String FirestoreClient :=
  if status = .ok ∧ s.isStarted = false then .ok s
  else do
    hardAssert (s.isStarted = true) "Trying to close a non-started stream"
    let s := { s with
      stream := { s.stream with
        idlenessTimer := false
        state := if status = Status.ok then .initial else .error }
      call := Call.quiet }
    let s ← s.onWriteStreamClose status
    return { s with stream := { s.stream with handshakeComplete := false } }

def enableNetwork (s : FirestoreClient) : Except String FirestoreClient :=
  fillWritePipeline { s with isNetworkEnabled := true }

def disableNetwork (s : FirestoreClient) : Except String FirestoreClient := do
  let s ← close { s with isNetworkEnabled := false } .ok
  return { s with writePipeline := [] }

def restartNetwork (s : FirestoreClient) : Except String FirestoreClient := do
  let s ← s.disableNetwork
  let s ← s.inhibitBackoff
  s.enableNetwork

/-! ## What the stream is told -/

def onStreamStart (s : FirestoreClient) : Except String FirestoreClient :=
  (s.withState .opened).writeHandshake

/-- The first answer is the one to the handshake. -/
def onStreamRead (s : FirestoreClient) (response : Response) : Except String FirestoreClient := do
  hardAssert (s.isStarted = true) "OnStreamRead called for a stopped stream."
  if s.stream.handshakeComplete then s.onWriteStreamMutationResult response
  else
    let s := { s with stream := { s.stream with handshakeComplete := true } }
    s.writePipeline.foldlM writeMutations s

def onBackoffElapsed (s : FirestoreClient) : Except String FirestoreClient := do
  hardAssert (s.stream.state = .backoff) "Backoff elapsed but state has changed"
  let s ← (s.withState .initial).startStream
  hardAssert (s.isStarted = true) "Stream should have started."
  return s

/-! ## What the program asks for -/

/-- `SyncEngine::WriteMutations`; a callback is only taken for an ID that has none. -/
def writeLocally (s : FirestoreClient) (mutations : List Mutation) (nonempty : mutations ≠ [])
    (ticket : Ticket) : Except String FirestoreClient :=
  let (batch, store) := s.store.writeLocally mutations nonempty
  let callbacks := s.mutationCallbacks s.store.user
  fillWritePipeline { s with
    store
    mutationCallbacks := Function.update s.mutationCallbacks s.store.user
      (Function.update callbacks batch.batchId ((callbacks batch.batchId).or (some ticket))) }

def handleCredentialChange (s : FirestoreClient) (user : User) : Except String FirestoreClient :=
  let s := if s.store.user ≠ user then { s with store := s.store.handleUserChange user } else s
  if s.isNetworkEnabled then s.restartNetwork else .ok s

/-- `Initialize`: a process starts on what an earlier one has left on the device. -/
def launch (user : User) (store : LocalStore) : Except String FirestoreClient :=
  enableNetwork
    { store := LocalStore.start { store with user }
      mutationCallbacks := fun _ _ => none
      told := fun _ => []
      isNetworkEnabled := false
      writePipeline := []
      stream := ⟨.initial, false, false⟩
      call := Call.quiet }

end FirestoreClient

end DogFoodTracker.Core
