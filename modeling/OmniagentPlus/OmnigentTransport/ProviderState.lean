import OmniagentPlus.OmnigentTransport.HistoryReplay
import OmniagentPlus.OmnigentTransport.NormalizerCalls
import OmniagentPlus.CoreContracts.StateLedger

/-! What an `OmnigentHttpProvider` of `http-provider.ts` keeps: its sessions and turn handles, and
books on turns under keys that put a session and a turn together. -/
namespace OmniagentPlus.OmnigentTransport
open OmniagentPlus.Foundation OmniagentPlus.CoreContracts

inductive OmnigentSessionStatus
  | idle
  | running
  | waiting
  | failed
  deriving DecidableEq, Repr

/-- `pendingInputs` has the pending ids; `null` and `undefined` are `none`. -/
structure OmnigentSessionSnapshot (ν : Type) where
  activeResponseId : Option Text
  activeTurnId : Option Text
  createdAt : Text
  id : Text
  items : List (OmnigentConversationItem ν)
  pendingInputs : List Text
  status : OmnigentSessionStatus
  title : Text
  updatedAt : Text

structure OmnigentCancellationFence where
  awaitingIdentity : Bool
  officialTurnIds : List Text
  turnId : Text
  deriving DecidableEq

structure OmnigentSessionMutationFenceState where
  cancellation : Option OmnigentCancellationFence := none
  closed : Bool := false
  closing : Bool := false
  rejectedTurnIds : List Text := []
  deriving DecidableEq

/-- `OmnigentEventAck`; `handled` is one that was not queued. -/
inductive OmnigentEventAck
  | accepted (item_id pending_id : Option Text)
  | handled
  | denied (reason : Text)
  deriving DecidableEq

structure SendTurnRequest where
  sessionId : Text
  idempotencyKey : Text
  message : Text
  deriving DecidableEq

structure CreateSessionRequest where
  idempotencyKey : Text
  title : Text
  deriving DecidableEq

structure AgentSessionInfo (ν : Type) where
  activeTurnId : Option Text
  createdAt : Text
  eventCursor : ℕ
  id : Text
  lastError : Option (RuntimeFailure ν)
  rootSessionId : Text
  state : AgentSessionState
  title : Text
  updatedAt : Text

/-- `TurnHandle`, whose id, state and time the provider changes in place. -/
structure MutableTurnHandle where
  createdAt : Text
  idempotencyKey : Text
  sessionId : Text
  state : TurnState
  turnId : Text
  updatedAt : Text
  deriving DecidableEq

/-- What is thrown: a `RuntimeFailure`, a network error or something else. A reader of a stream that
stops reading makes its generator return; that comes as `returned`. -/
inductive ProviderError (ν : Type)
  | failure (failure : RuntimeFailure ν)
  | network
  | other
  | returned

/-- The options of the client: whether turns may queue, and which of the lease and the store are there. -/
structure OmnigentHttpClientOptions where
  allowQueuedTurns : Bool
  withExclusiveSessionLease : Bool
  sessionMutationFenceStore : Bool
  deriving DecidableEq

/-- A `Set` of texts in insertion order. -/
abbrev KeySet := Dictionary Text Unit

namespace KeySet

def add (s : KeySet) (key : Text) : KeySet := s.set key ()

def has (s : KeySet) (key : Text) : Bool := (s.get? key).isSome

end KeySet

section Failures
variable {ν : Type}

/-- `createRuntimeFailure` of the provider itself. -/
def providerFailure (category : RuntimeFailureCategory) (scope : RuntimeFailureScope) (retryable : Bool)
    (message : Text) : ProviderError ν :=
  .failure ⟨category,retryable,.provider,scope,message,none,none,none⟩

/-- A conflict with what the session is doing. -/
def stateConflict (scope : RuntimeFailureScope) (message : Text) : ProviderError ν :=
  providerFailure .stateConflict scope false message

def policyDenial (reason : Text) : ProviderError ν :=
  .failure ⟨.policyDenied,false,.policy,.turn,reason,none,none,none⟩

def isNonRetryableRuntimeFailure : ProviderError ν → Bool
  | .failure f => !f.retryable
  | _ => false

def isSendAdmissionFailure : ProviderError ν → Bool
  | .failure f => decide (f.category = .stateConflict) || decide (f.category = .concurrencyLimit)
  | _ => false

def isPolicyDenied : ProviderError ν → Bool
  | .failure f => decide (f.category = .policyDenied)
  | _ => false

def isNetworkError : ProviderError ν → Bool
  | .network => true
  | _ => false

/-- What `assertControlEventAccepted` throws. -/
def controlEventFailure : OmnigentEventAck → Option (ProviderError ν)
  | .denied reason => some (policyDenial reason)
  | .accepted _ _ => some (providerFailure .malformedResponse .turn false
      (Text.of "Omnigent control acknowledgement must be handled synchronously."))
  | .handled => none

end Failures

/-- The promise of a send on a session: the handle of the turn, or what the send throws, once it is settled. -/
structure SendPromise (ν : Type) where
  sessionId : Text
  outcome : Option (Except (ProviderError ν) ℕ)

/-- The provider. A handle is known by its place in `handles`, where all that hold it see it change; so is
the promise of a call in `sendPromises` and `createPromises`. -/
structure OmnigentHttpProvider (ν : Type) where
  cancellationReservations : Dictionary Text Text := .empty
  cancellationOfficialTurnIds : Dictionary Text (List Text) := .empty
  cancelledTurnAwaitingIdentityKeys : KeySet := .empty
  cancelledTurnQuarantineKeys : KeySet := .empty
  claimedHistoryItemKeys : KeySet := .empty
  creates : Dictionary Text ℕ := .empty
  earlyCancellationProofKeys : KeySet := .empty
  latestTurnIds : Dictionary Text Text := .empty
  latestFailureTurnIds : Dictionary Text Text := .empty
  observedHistoryItemKeys : KeySet := .empty
  officialResponseTurnKeys : KeySet := .empty
  openStreams : Dictionary Text (Dictionary ℕ OmnigentSseNormalizer) := .empty
  nativePendingTurnKeys : KeySet := .empty
  pendingItemTurnIds : Dictionary Text Text := .empty
  provisionalTurnOrder : Dictionary Text (List Text) := .empty
  provisionalTurnAliases : Dictionary Text Text := .empty
  provisionalTurnKeys : KeySet := .empty
  queuedOnlyTurnKeys : KeySet := .empty
  rejectedTurnKeys : KeySet := .empty
  sends : Dictionary Text ℕ := .empty
  sessions : Dictionary Text (AgentSessionInfo ν) := .empty
  turns : Dictionary Text ℕ := .empty
  replay : EventReplay := .init
  handles : List MutableTurnHandle := []
  sendPromises : List (SendPromise ν) := []
  createPromises : List (Option (Except (ProviderError ν) (AgentSessionInfo ν))) := []
  streamOrdinal : ℕ := 0

/-- Code between two suspensions: it changes the provider and may throw. -/
abbrev Segment (ν α : Type) := ExceptT (ProviderError ν) (StateM (OmnigentHttpProvider ν)) α

/-- The keys of a session start so. -/
def keyPrefix (sessionId : Text) : Text := sessionId ++ Text.of ":"

/-- The key of a turn, an item or a request of a session. -/
def sessionKey (sessionId id : Text) : Text := keyPrefix sessionId ++ id

def hasKeyPrefix (sessionId key : Text) : Bool := (keyPrefix sessionId).isPrefixOf key

/-- `key.slice(keyPrefix.length)` -/
def afterKeyPrefix (sessionId key : Text) : Text := key.drop (keyPrefix sessionId).length

section Sessions
variable {ν : Type}

def mapSessionState : OmnigentSessionStatus → AgentSessionState
  | .running | .waiting => .turnActive
  | .failed => .failed
  | .idle => .idle

def toSessionInfo (snapshot : OmnigentSessionSnapshot ν) (previous : Option (AgentSessionInfo ν)) :
    AgentSessionInfo ν :=
  let snapshotTurnId := snapshot.activeTurnId.or snapshot.activeResponseId
  let idle := decide (snapshot.status = .idle)
  let previousState : Option AgentSessionState := previous.map (·.state)
  let preserveActiveTurn := idle && snapshotTurnId.isNone && decide (previousState = some .turnActive)
  let preserveFailure := idle && decide (previousState = some .failed)
  { activeTurnId := if preserveActiveTurn then previous.bind (·.activeTurnId) else snapshotTurnId
    createdAt := snapshot.createdAt
    eventCursor := (previous.map (·.eventCursor)).getD 0
    id := snapshot.id
    lastError := previous.bind (·.lastError)
    rootSessionId := snapshot.id
    state := if preserveActiveTurn || preserveFailure then previousState.getD .idle else mapSessionState snapshot.status
    title := snapshot.title
    updatedAt := snapshot.updatedAt }

/-- The info of a tracked session after a snapshot: a closed one stays closed, and one whose turn is to be
preserved keeps its state. -/
def resolveSessionInfo (existing : AgentSessionInfo ν) (snapshot : OmnigentSessionSnapshot ν)
    (preserveActiveIdentity : Bool) : AgentSessionInfo ν :=
  let next := toSessionInfo snapshot (some existing)
  if existing.state = .closed then { next with activeTurnId := none, state := .closed }
  else if preserveActiveIdentity then { next with activeTurnId := existing.activeTurnId, state := existing.state }
  else next

namespace OmnigentHttpProvider
variable (p : OmnigentHttpProvider ν) (sessionId : Text)

def setSession (info : AgentSessionInfo ν) : OmnigentHttpProvider ν :=
  { p with sessions := p.sessions.set sessionId info }

/-- The session under another info, where it is tracked. -/
def updateSession (change : AgentSessionInfo ν → AgentSessionInfo ν) : OmnigentHttpProvider ν :=
  match p.sessions.get? sessionId with
  | some session => p.setSession sessionId (change session)
  | none => p

def activeTurnId : Option Text := (p.sessions.get? sessionId).bind (·.activeTurnId)

def isClosed : Bool := (p.sessions.get? sessionId).any (fun session => decide (session.state = .closed))

/-- Every open stream of the session takes a call. -/
def onStreams (call : OmnigentSseNormalizer → OmnigentSseNormalizer) : OmnigentHttpProvider ν :=
  match p.openStreams.get? sessionId with
  | some streams => { p with openStreams := p.openStreams.set sessionId (streams.mapValues call) }
  | none => p

/-- One open stream of the session takes a call. -/
def onStream (stream : ℕ) (call : OmnigentSseNormalizer → OmnigentSseNormalizer) : OmnigentHttpProvider ν :=
  let streams := (p.openStreams.get? sessionId).getD .empty
  match streams.get? stream with
  | some normalizer =>
    { p with openStreams := p.openStreams.set sessionId (streams.set stream (call normalizer)) }
  | none => p

/-- `stream?.call(...)` -/
def onGivenStream (stream : Option ℕ) (call : OmnigentSseNormalizer → OmnigentSseNormalizer) :
    OmnigentHttpProvider ν :=
  match stream with
  | some stream => p.onStream sessionId stream call
  | none => p

/-- A handle takes a change in place. -/
def changeHandle (handle : ℕ) (change : MutableTurnHandle → MutableTurnHandle) : OmnigentHttpProvider ν :=
  { p with handles := p.handles.modify handle change }

end OmnigentHttpProvider
end Sessions
end OmniagentPlus.OmnigentTransport
