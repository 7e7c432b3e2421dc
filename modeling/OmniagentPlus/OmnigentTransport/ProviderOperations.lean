import OmniagentPlus.OmnigentTransport.ProviderSegments
import OmniagentPlus.Foundation.Process

/-! The asynchronous methods of `OmnigentHttpProvider` as processes: they stop at every request to the
server, the lease or the store of fences, and at every event that a reader takes. -/
namespace OmniagentPlus.OmnigentTransport
open OmniagentPlus.Foundation OmniagentPlus.CoreContracts

/-- What a process stops at. Each action that may fail answers with what it throws. -/
inductive Action (ν : Type) : Type → Type 1
  | sync {α : Type} (segment : Segment ν α) : Action ν (Except (ProviderError ν) α)
  | now : Action ν (Except (ProviderError ν) Text)
  | acquireLease (sessionId : Text) : Action ν (Except (ProviderError ν) Unit)
  | releaseLease (sessionId : Text) : Action ν (Except (ProviderError ν) Unit)
  | readFence (sessionId : Text) : Action ν (Except (ProviderError ν) OmnigentSessionMutationFenceState)
  | writeFence (sessionId : Text) (state : OmnigentSessionMutationFenceState) : Action ν (Except (ProviderError ν) Unit)
  | createSession (request : CreateSessionRequest) : Action ν (Except (ProviderError ν) (OmnigentSessionSnapshot ν))
  | getSession (sessionId : Text) : Action ν (Except (ProviderError ν) (OmnigentSessionSnapshot ν))
  | getHistory (sessionId : Text) : Action ν (Except (ProviderError ν) (List (OmnigentConversationItem ν)))
  | sendTurn (request : SendTurnRequest) : Action ν (Except (ProviderError ν) OmnigentEventAck)
  | interrupt (sessionId : Text) : Action ν (Except (ProviderError ν) OmnigentEventAck)
  | stopSession (sessionId : Text) : Action ν (Except (ProviderError ν) OmnigentEventAck)
  | openSessionStream (sessionId : Text) : Action ν (Except (ProviderError ν) (List (OmnigentTaggedSseEvent ν × Text)))
  | nextFrame : Action ν (Except (ProviderError ν) Unit)
  | deliver (event : RuntimeEventEnvelope ν) : Action ν (Except (ProviderError ν) Unit)
  | awaitSend (promise : ℕ) : Action ν (Except (ProviderError ν) ℕ)
  | awaitCreate (promise : ℕ) : Action ν (Except (ProviderError ν) (AgentSessionInfo ν))

/-- An asynchronous method. -/
abbrev Async (ν α : Type) := ExceptT (ProviderError ν) (Process (Action ν)) α

section Basics
variable {ν α : Type}

def perform (x : Action ν (Except (ProviderError ν) α)) : Async ν α := ExceptT.mk (Process.action x)

def Async.sync (segment : Segment ν α) : Async ν α := perform (.sync segment)

/-- The session's exclusive lease around `operation`. -/
def withExclusiveSessionLease (sessionId : Text) (operation : Async ν α) : Async ν α := do
  perform (.acquireLease sessionId)
  Process.finally' operation (perform (.releaseLease sessionId))

def runSessionMutation (options : OmnigentHttpClientOptions) (sessionId : Text) (operation : Async ν α) : Async ν α :=
  if options.withExclusiveSessionLease then withExclusiveSessionLease sessionId operation else operation

/-- `requireSessionMutationFenceStore`, before each access to the store. -/
def requireStore (options : OmnigentHttpClientOptions) : Async ν Unit :=
  if options.sessionMutationFenceStore then pure ()
  else throw (providerFailure .backendCapabilityMissing .session false
    (Text.of "Omnigent leased mutations require a fleet-wide session mutation fence store."))

def readSharedState (options : OmnigentHttpClientOptions) (sessionId : Text) :
    Async ν OmnigentSessionMutationFenceState := do
  requireStore options
  perform (.readFence sessionId)

def refreshSharedSessionMutationState (options : OmnigentHttpClientOptions) (sessionId : Text) : Async ν Unit := do
  if options.withExclusiveSessionLease then
    let state ← withExclusiveSessionLease sessionId (readSharedState options sessionId)
    Async.sync (Segment.change (fun p => p.installSharedSessionMutationState sessionId state))

/-- The ids of a set, in insertion order, with more of them. -/
def addIds (ids more : List Text) : List Text := more.foldl (fun ids id => if id ∈ ids then ids else ids ++ [id]) ids

end Basics

section Create
variable {ν : Type} (request : CreateSessionRequest)

def createSessionOnce : Async ν (AgentSessionInfo ν) := do
  let snapshot ← perform (.createSession request)
  let session := toSessionInfo snapshot none
  Async.sync (Segment.change (fun p => { p with
    observedHistoryItemKeys := observeItems snapshot.id snapshot.items p.observedHistoryItemKeys
    }.setSession session.id session))
  return session

/-- The promise of the request's key, or a new one. -/
def claimCreate (p : OmnigentHttpProvider ν) : (ℕ ⊕ ℕ) × OmnigentHttpProvider ν :=
  match p.creates.get? request.idempotencyKey with
  | some promise => (.inl promise,p)
  | none => (.inr p.createPromises.length,{ p with
      creates := p.creates.set request.idempotencyKey p.createPromises.length
      createPromises := p.createPromises ++ [none] })

def createSession : Async ν (AgentSessionInfo ν) := do
  match ← Async.sync (Segment.take (claimCreate request)) with
  | .inl existing => perform (.awaitCreate existing)
  | .inr pending =>
    let outcome ← Process.attempt (createSessionOnce request)
    Async.sync (Segment.change (fun p => { p with createPromises := p.createPromises.set pending (some outcome) }))
    match outcome with
    | .ok session => return session
    | .error error =>
      Async.sync (Segment.change (fun p => { p with creates := p.creates.erase request.idempotencyKey }))
      throw error

end Create

section Send
variable {ν : Type} (options : OmnigentHttpClientOptions) (request : SendTurnRequest)

def persistRejectedTurnIdentities (sessionId : Text) (turnIds : List Text) : Async ν Unit := do
  if options.withExclusiveSessionLease && options.sessionMutationFenceStore then
    let state ← perform (.readFence sessionId)
    perform (.writeFence sessionId { state with rejectedTurnIds := addIds (addIds [] state.rejectedTurnIds) turnIds })

/-- The request of `sendTurnOnce` and what its acknowledgement does. -/
def postTurn (registered : RegisteredTurn ν) : Async ν Unit := do
  match ← perform (.sendTurn request) with
  | .denied reason => throw (policyDenial reason)
  | .handled => Async.sync (Segment.change (acknowledgeTurn request registered.handle none none))
  | .accepted item_id pending_id =>
    Async.sync (Segment.change (acknowledgeTurn request registered.handle item_id pending_id))

/-- `sendTurnOnce`, once the turn is registered. -/
def sendRegisteredTurn (registered : RegisteredTurn ν) : Async ν ℕ := do
  match ← Process.attempt (postTurn request registered) with
  | .ok () => return registered.handle
  | .error error =>
    match ← Async.sync (Segment.take (failSend request registered error)) with
    | .keptHandle => return registered.handle
    | .rolledBack => throw error
    | .persist currentTurnId =>
      persistRejectedTurnIdentities options request.sessionId [provisionalTurnId request,currentTurnId]
      Async.sync (Segment.change (rollbackSend request registered))
      throw error

/-- The shared fence, where the client is to heed one. -/
def sharedStateOfSend : Async ν (Option OmnigentSessionMutationFenceState) := do
  if options.withExclusiveSessionLease then return some (← readSharedState options request.sessionId)
  else return none

def sendTurnWithExclusiveLease : Async ν ℕ := do
  let sharedState ← sharedStateOfSend options request
  if options.withExclusiveSessionLease && !options.allowQueuedTurns then
    Async.sync (admitTurn options request sharedState)
    let snapshot ← perform (.getSession request.sessionId)
    let now ← perform .now
    let registered ← Async.sync (do
      admitUpstream request snapshot
      Segment.take (registerTurn request now))
    sendRegisteredTurn options request registered
  else
    let now ← perform .now
    let registered ← Async.sync (do
      admitTurn options request sharedState
      Segment.take (registerTurn request now))
    sendRegisteredTurn options request registered

/-- The promise of the session's key, or a new one. -/
def claimSend (p : OmnigentHttpProvider ν) : (ℕ ⊕ ℕ) × OmnigentHttpProvider ν :=
  let key := sessionKey request.sessionId request.idempotencyKey
  match p.sends.get? key with
  | some promise => (.inl promise,p)
  | none => (.inr p.sendPromises.length,{ p with
      sends := p.sends.set key p.sendPromises.length
      sendPromises := p.sendPromises ++ [⟨request.sessionId,none⟩] })

def OmnigentHttpProvider.settleSend (p : OmnigentHttpProvider ν) (pending : ℕ) (outcome : Except (ProviderError ν) ℕ) :
    OmnigentHttpProvider ν :=
  { p with sendPromises := p.sendPromises.modify pending (fun promise => { promise with outcome := some outcome }) }

/-- What a send has come to so far. -/
def OmnigentHttpProvider.sendOutcome (p : OmnigentHttpProvider ν) (promise : ℕ) : Option (Except (ProviderError ν) ℕ) :=
  p.sendPromises[promise]?.bind (·.outcome)

/-- The handle of the turn. -/
def sendTurn : Async ν ℕ := do
  match ← Async.sync (Segment.take (claimSend request)) with
  | .inl existing => perform (.awaitSend existing)
  | .inr pending =>
    let outcome ← Process.attempt (runSessionMutation options request.sessionId (sendTurnWithExclusiveLease options request))
    Async.sync (Segment.change (fun p => p.settleSend pending outcome))
    match outcome with
    | .ok handle => return handle
    | .error error =>
      if !isNonRetryableRuntimeFailure error || isSendAdmissionFailure error then
        Async.sync (Segment.change (fun p => { p with
          sends := p.sends.erase (sessionKey request.sessionId request.idempotencyKey) }))
      throw error

end Send
end OmniagentPlus.OmnigentTransport
