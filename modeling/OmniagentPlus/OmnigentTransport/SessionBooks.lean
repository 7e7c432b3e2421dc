import OmniagentPlus.OmnigentTransport.TurnBooks

/-! What `OmnigentHttpProvider` does to its sessions and to the books on their turns when it sees a
snapshot, a history, the shared fence or an event of the stream. -/
namespace OmniagentPlus.OmnigentTransport
open OmniagentPlus.Foundation OmniagentPlus.CoreContracts

section Events
variable {ν : Type}

def isFailureTerminal (event : OmnigentRawEvent ν) : Bool :=
  event.terminal = some true && match event.type with
  | .stream .responseFailed | .stream .turnFailed => true
  | .stream .sessionStatus => decide (event.status = some .failed)
  | .stream .responseIncomplete => !OmnigentEventMapper.reasonIncludes event "interrupt" &&
      !OmnigentEventMapper.reasonIncludes event "timeout"
  | _ => false

def isCancellationTerminal (event : OmnigentRawEvent ν) : Bool :=
  match event.type with
  | .stream .responseCancelled | .stream .turnCancelled => true
  | .stream .responseIncomplete => OmnigentEventMapper.reasonIncludes event "interrupt"
  | _ => false

def stateMutationRequiresRuntimeEvent (event : OmnigentRawEvent ν) : Bool :=
  match event.type with
  | .stream type => decide (type ∈ [.responseCreated,.turnStarted,.responseOutputTextDelta,.responseOutputItemDone,
      .responseCompleted,.turnCompleted,.responseCancelled,.turnCancelled,.responseIncomplete,.responseFailed,
      .turnFailed])
  | .done => false

def messageItemId (event : OmnigentRawEvent ν) : Option Text :=
  event.item.bind (fun item => if Json.asString (Json.field item "type") = some (Text.of "message") then
    Json.asString (Json.field item "id") else none)

/-- `rawEvent.message_id ?? messageItemId(rawEvent)` -/
def sourceMessageId (event : OmnigentRawEvent ν) : Option Text := event.message_id.or (messageItemId event)

def mappedFailure (events : List (RuntimeEventEnvelope ν)) : Option (RuntimeFailure ν) :=
  events.findSome? (fun event => match event.payload with
    | .turnFailed failure => some failure
    | _ => none)

/-- The last event that starts or ends a turn. -/
def latestLifecycle (events : List (RuntimeEventEnvelope ν)) : Option (RuntimeEventEnvelope ν) :=
  events.reverse.find? (fun event => event.turnId.isSome && (decide (event.payload.type = .turnStarted) || event.terminal))

end Events

namespace OmnigentHttpProvider
variable {ν : Type} (p : OmnigentHttpProvider ν) (sessionId : Text)

def shouldPreserveActiveIdentity (snapshot : OmnigentSessionSnapshot ν) : Bool :=
  ((p.provisionalTurnOrder.get? sessionId).any (fun order => !order.isEmpty)) ||
    (Text.truthy snapshot.activeResponseId).any (fun id => (p.turns.get? (sessionKey sessionId id)).isSome ||
      p.rejectedTurnKeys.has (sessionKey sessionId id))

def refreshTrackedSession (snapshot : OmnigentSessionSnapshot ν) (preserveActiveIdentity : Bool) :
    OmnigentHttpProvider ν :=
  p.updateSession sessionId (fun existing => resolveSessionInfo existing snapshot preserveActiveIdentity)

/-- A session that is not closed changes. -/
def updateOpenSession (change : AgentSessionInfo ν → AgentSessionInfo ν) : OmnigentHttpProvider ν :=
  p.updateSession sessionId (fun session => if session.state = .closed then session else change session)

def setActiveTurn (turnId updatedAt : Text) : OmnigentHttpProvider ν :=
  { p with latestTurnIds := p.latestTurnIds.set sessionId turnId }.updateOpenSession sessionId
    (fun session => { session with activeTurnId := some turnId, state := .turnActive, updatedAt := updatedAt })

/-- The session is tracked and not closed. -/
def isOpen : Bool := (p.sessions.get? sessionId).any (fun session => decide (session.state ≠ .closed))

def clearActiveTurn (updatedAt : Text) (turnId : Option Text) : OmnigentHttpProvider ν :=
  let preserveFailure := turnId.isSome && decide (p.latestFailureTurnIds.get? sessionId = turnId)
  let forgotten := if p.isOpen sessionId && !preserveFailure then
      { p with latestFailureTurnIds := p.latestFailureTurnIds.erase sessionId }
    else p
  forgotten.updateOpenSession sessionId (fun session => { session with
    activeTurnId := none
    lastError := if preserveFailure then session.lastError else none
    state := if preserveFailure then .failed else .idle
    updatedAt := updatedAt })

def failActiveTurn (updatedAt : Text) (lastError : Option (RuntimeFailure ν)) (turnId : Option Text) :
    OmnigentHttpProvider ν :=
  let noted := match turnId with
    | some turnId => if p.isOpen sessionId then
        { p with latestFailureTurnIds := p.latestFailureTurnIds.set sessionId turnId } else p
    | none => p
  noted.updateOpenSession sessionId (fun session => { session with
    activeTurnId := none
    lastError := lastError.or session.lastError
    state := .failed
    updatedAt := updatedAt })

/-- The turn that the history ends with is over, and was the active one if there is one. -/
def applyLifecycle (event : RuntimeEventEnvelope ν) : OmnigentHttpProvider ν :=
  match event.payload with
  | .turnFailed failure => p.failActiveTurn sessionId event.occurredAt (some failure) event.turnId
  | .turnCompleted _ | .turnCancelled _ =>
    if (p.sessions.get? sessionId).isSome then
      { p with latestFailureTurnIds := p.latestFailureTurnIds.erase sessionId }.updateSession sessionId
        (fun session => { session with
          activeTurnId := none, lastError := none, state := .idle, updatedAt := event.occurredAt })
    else p
  | _ => p

def applyMappedHistoryState (events : List (RuntimeEventEnvelope ν)) : OmnigentHttpProvider ν :=
  if p.isClosed sessionId then p
  else
    match latestLifecycle events with
    | none => p
    | some event =>
      if (Text.truthy event.turnId).isNone then p
      else if (p.activeTurnId sessionId).any (fun activeTurnId => decide (event.turnId ≠ some activeTurnId)) then p
      else p.applyLifecycle sessionId event

section SharedState

/-- The quarantine of a session is the one of the shared fence: any other is lifted. -/
def keepQuarantineOf (cancellation : Option OmnigentCancellationFence) : OmnigentHttpProvider ν :=
  let cancellationKey := cancellation.map (fun fence => sessionKey sessionId fence.turnId)
  let lifted := fun turnKey => hasKeyPrefix sessionId turnKey && decide (some turnKey ≠ cancellationKey)
  { p with
    cancelledTurnAwaitingIdentityKeys := p.cancelledTurnAwaitingIdentityKeys.filterEntries
      (fun turnKey _ => !(lifted turnKey && p.cancelledTurnQuarantineKeys.has turnKey))
    cancelledTurnQuarantineKeys := p.cancelledTurnQuarantineKeys.filterEntries (fun turnKey _ => !lifted turnKey) }

/-- The official ids of a turn that is being cancelled are bound to it. -/
def bindOfficialTurns (cancellation : Option OmnigentCancellationFence) : OmnigentHttpProvider ν :=
  match cancellation with
  | some fence => p.onStreams sessionId (fun stream => fence.officialTurnIds.foldl
      (fun stream officialTurnId => stream.bindResponseId officialTurnId fence.turnId) stream)
  | none => p

/-- The streams do not reject the turn that is being cancelled. -/
def rejectSharedTurns (state : OmnigentSessionMutationFenceState) : OmnigentHttpProvider ν :=
  state.rejectedTurnIds.foldl (fun p turnId =>
    let noted := p.rejectTurnKey sessionId turnId
    if state.cancellation.any (fun fence => decide (turnId = fence.turnId)) then noted
    else noted.onStreams sessionId (fun stream => stream.rejectTurnId turnId)) p

/-- The session is closed, where it is tracked and the fence says so. -/
def closeTracked (closed : Bool) : OmnigentHttpProvider ν :=
  if closed then p.updateSession sessionId (fun session => { session with activeTurnId := none, state := .closed }) else p

def quarantineShared (cancellation : Option OmnigentCancellationFence) : OmnigentHttpProvider ν :=
  match cancellation with
  | some fence =>
    let turnKey := sessionKey sessionId fence.turnId
    { p with
      rejectedTurnKeys := p.rejectedTurnKeys.add turnKey
      cancelledTurnQuarantineKeys := p.cancelledTurnQuarantineKeys.add turnKey
      cancelledTurnAwaitingIdentityKeys := if fence.awaitingIdentity then p.cancelledTurnAwaitingIdentityKeys.add turnKey
        else p.cancelledTurnAwaitingIdentityKeys
      }.onStreams sessionId (fun stream => stream.quarantineFallbackTurnId fence.turnId)
  | none => p

/-- The streams of the session, the given one among them, are those that are open. -/
def installSharedSessionMutationState (state : OmnigentSessionMutationFenceState) : OmnigentHttpProvider ν :=
  ((((p.bindOfficialTurns sessionId state.cancellation).keepQuarantineOf sessionId state.cancellation).rejectSharedTurns
    sessionId state).closeTracked sessionId state.closed).quarantineShared sessionId state.cancellation

end SharedState

section Cancellation

/-- The cancelled turn that an event of the session is about. -/
def quarantinedTurnOf (event : OmnigentRawEvent ν) : Option Text :=
  let named := Text.truthy ([event.turnAliasId,event.turnId].findSome? (fun turnId => turnId.filter (fun id =>
    p.cancelledTurnQuarantineKeys.has (sessionKey sessionId id))))
  match named with
  | some turnId => some turnId
  | none =>
    if event.type = .stream .sessionInterrupted then
      match p.cancelledTurnQuarantineKeys.keys.filter (hasKeyPrefix sessionId) with
      | [turnKey] => Text.truthy (some (afterKeyPrefix sessionId turnKey))
      | _ => none
    else none

/-- An event that shows the turn being cancelled to be over is noted. -/
def noteEarlyProof (event : OmnigentRawEvent ν) : OmnigentHttpProvider ν :=
  match Text.truthy (p.cancellationReservations.get? sessionId) with
  | some reservedTurnId =>
    if event.type = .stream .sessionInterrupted ∨ (isCancellationTerminal event = true ∧
        (event.turnAliasId = some reservedTurnId ∨ event.turnId = some reservedTurnId)) then
      { p with earlyCancellationProofKeys := p.earlyCancellationProofKeys.add (sessionKey sessionId reservedTurnId) }
    else p
  | none => p

/-- The quarantine of a turn ends with an event. -/
def endQuarantine (event : OmnigentRawEvent ν) (cancelledTurnId : Text) (confirmedOfficialIdentity : Bool) :
    OmnigentHttpProvider ν :=
  let cancelledTurnKey := sessionKey sessionId cancelledTurnId
  let official := match confirmedOfficialIdentity, Text.truthy event.turnId with
    | true, some turnId => { p with
        officialResponseTurnKeys := p.officialResponseTurnKeys.add (sessionKey sessionId turnId) }
    | _, _ => p
  let lifted := { official with
    cancelledTurnAwaitingIdentityKeys := official.cancelledTurnAwaitingIdentityKeys.erase cancelledTurnKey
    cancelledTurnQuarantineKeys := official.cancelledTurnQuarantineKeys.erase cancelledTurnKey
    }.onStreams sessionId (fun stream => stream.removeFallbackTurnId cancelledTurnId)
  match Text.truthy event.turnId with
  | some turnId => (lifted.rejectTurnKey sessionId turnId).onStreams sessionId (fun stream => stream.rejectTurnId turnId)
  | none => lifted

/-- The turn whose quarantine the event ends and the official one, with the provider. -/
def consumeCancelledTurnQuarantine (event : OmnigentRawEvent ν) :
    Option (Text × Option Text) × OmnigentHttpProvider ν :=
  let noted := p.noteEarlyProof sessionId event
  match noted.quarantinedTurnOf sessionId event with
  | none => (none,noted)
  | some cancelledTurnId =>
    let sessionInterruption := decide (event.type = .stream .sessionInterrupted)
    let confirmedOfficialIdentity := decide (event.turnAliasConfirmed ≠ some false) &&
      decide (event.turnAliasId = some cancelledTurnId) && event.turnId.isSome &&
      decide (event.turnId ≠ some cancelledTurnId)
    if noted.cancelledTurnAwaitingIdentityKeys.has (sessionKey sessionId cancelledTurnId) && !sessionInterruption &&
        !confirmedOfficialIdentity then (none,noted)
    else (some (cancelledTurnId,event.turnId),noted.endQuarantine sessionId event cancelledTurnId confirmedOfficialIdentity)

end Cancellation
end OmnigentHttpProvider
end OmniagentPlus.OmnigentTransport
