import OmniagentPlus.OmnigentTransport.ProviderOperations

/-! `cancelTurn`, `closeSession`, `getSessionInfo` and `readHistory` of `OmnigentHttpProvider`. -/
namespace OmniagentPlus.OmnigentTransport
open OmniagentPlus.Foundation OmniagentPlus.CoreContracts

section Cancel
variable {ν : Type} (handle : MutableTurnHandle)

def cancelKey : Text := sessionKey handle.sessionId handle.turnId

def turnConflict (start rest : String) : ProviderError ν :=
  stateConflict .turn (Text.of start ++ handle.turnId ++ Text.of rest ++ handle.sessionId ++ Text.of ".")

/-- The official ids that were seen for the turn since its cancellation began. -/
def observedOfficialTurnIds (p : OmnigentHttpProvider ν) : List Text :=
  (p.cancellationOfficialTurnIds.get? (cancelKey handle)).getD []

/-- The ids under which the turn may be cancelled. -/
def ownsTurn (p : OmnigentHttpProvider ν) (turnId : Text) : Bool :=
  decide (turnId = handle.turnId) || decide (turnId ∈ observedOfficialTurnIds handle p)

def reserveCancellation : Segment ν Unit := do
  Segment.check (fun p => (p.cancellationReservations.get? handle.sessionId).isNone)
    (stateConflict .turn (Text.of "Session " ++ handle.sessionId ++ Text.of " already has a cancellation in progress."))
  Segment.change (fun p => { p with
    cancellationReservations := p.cancellationReservations.set handle.sessionId handle.turnId })

def releaseReservation (p : OmnigentHttpProvider ν) : OmnigentHttpProvider ν :=
  { p with
    cancellationReservations := p.cancellationReservations.erase handle.sessionId
    cancellationOfficialTurnIds := p.cancellationOfficialTurnIds.erase (cancelKey handle)
    earlyCancellationProofKeys := p.earlyCancellationProofKeys.erase (cancelKey handle) }

/-- The checks before the snapshot. -/
def admitCancellation (sharedState : OmnigentSessionMutationFenceState) : Segment ν Unit := do
  let session := Text.of "Session " ++ handle.sessionId
  Segment.change (fun p => p.installSharedSessionMutationState handle.sessionId sharedState)
  Segment.require (!(sharedState.closed || sharedState.closing))
    (stateConflict .session (session ++ Text.of " is closing or closed."))
  Segment.require sharedState.cancellation.isNone
    (stateConflict .turn (session ++ Text.of " is awaiting cancellation reconciliation."))
  Segment.check (fun p => (p.activeTurnId handle.sessionId).any (ownsTurn handle p))
    (turnConflict handle "Turn " " is not the active turn for session ")

/-- The checks of the snapshot, and the fence to be raised. -/
def fenceCancellation (snapshot : OmnigentSessionSnapshot ν) : Segment ν OmnigentCancellationFence := do
  Segment.check (fun p => (Text.truthy snapshot.activeResponseId).all (ownsTurn handle p))
    (turnConflict handle "Turn " " is not the upstream active response for session ")
  Segment.check (fun p => snapshot.activeResponseId.any (ownsTurn handle p) ||
      snapshot.pendingInputs.any (ownsTurn handle p))
    (stateConflict .turn (Text.of "Session " ++ handle.sessionId ++
      Text.of " does not positively attribute interrupt authority to turn " ++ handle.turnId ++ Text.of "."))
  Segment.check (fun p => (p.activeTurnId handle.sessionId).any (ownsTurn handle p))
    (stateConflict .turn (Text.of "Turn " ++ handle.turnId ++ Text.of " stopped owning session " ++ handle.sessionId ++
      Text.of " before cancellation."))
  Segment.look (fun p => {
    awaitingIdentity := !p.officialResponseTurnKeys.has (cancelKey handle) && (observedOfficialTurnIds handle p).isEmpty
    officialTurnIds := observedOfficialTurnIds handle p
    turnId := handle.turnId })

/-- An accepted interrupt: the official ids are rejected. Gives them, and whether the end of the turn was seen. -/
def confirmInterrupt (ack : OmnigentEventAck) : Segment ν (List Text × Bool) := do
  match controlEventFailure ack with
  | some error => throw error
  | none =>
    let observed ← Segment.look (observedOfficialTurnIds handle)
    Segment.change (fun p => observed.foldl (fun p officialTurnId =>
      (p.rejectTurnKey handle.sessionId officialTurnId).onStreams handle.sessionId
        (fun stream => stream.rejectTurnId officialTurnId)) p)
    return (observed,← Segment.look (fun p => p.earlyCancellationProofKeys.has (cancelKey handle)))

/-- The handle of the cancelled turn takes the place of the turn's own. -/
def finishCancellation (cancellationProofObserved : Bool) (now : Text) (p : OmnigentHttpProvider ν) :
    ℕ × OmnigentHttpProvider ν :=
  let cancelled := { handle with state := .cancelled, updatedAt := now }
  let replaced := { p with
    handles := p.handles ++ [cancelled]
    turns := p.turns.set (cancelKey handle) p.handles.length
    sends := p.sends.set (sessionKey handle.sessionId handle.idempotencyKey) p.sendPromises.length
    sendPromises := p.sendPromises ++ [SendPromise.mk handle.sessionId (some (Except.ok p.handles.length))] }
  (p.handles.length,((replaced.retireCancelledTurn handle.sessionId handle.turnId
    cancellationProofObserved).changeActiveTurn handle.sessionId handle.turnId (fun session =>
      { session with activeTurnId := none, state := .idle, updatedAt := now })))

/-- The fence of a turn with the official ids that were seen for it. -/
def observedFence (observed : List Text) : OmnigentCancellationFence :=
  ⟨observed.isEmpty,observed,handle.turnId⟩

/-- What is written once the interrupt is accepted. -/
def settleInterrupt (sharedState : OmnigentSessionMutationFenceState) (rejectedTurnIds observed : List Text)
    (cancellationProofObserved : Bool) : Async ν ℕ := do
  if cancellationProofObserved then
    perform (.writeFence handle.sessionId { closed := sharedState.closed, rejectedTurnIds := rejectedTurnIds })
  else if !observed.isEmpty then
    perform (.writeFence handle.sessionId { sharedState with
      cancellation := some (observedFence handle observed), rejectedTurnIds := rejectedTurnIds })
  let now ← perform .now
  Async.sync (Segment.take (finishCancellation handle cancellationProofObserved now))

/-- The `catch` of `cancelTurnWithExclusiveLease`. -/
def failCancellation (sharedState : OmnigentSessionMutationFenceState) (rejectedTurnIds : List Text)
    (error : ProviderError ν) : Async ν ℕ := do
  let observed ← Async.sync (Segment.look (observedOfficialTurnIds handle))
  if isPolicyDenied error then
    perform (.writeFence handle.sessionId sharedState)
    let now ← perform .now
    Async.sync (Segment.change (fun p => observed.foldl (fun p officialTurnId =>
      p.reconcileTurn handle.sessionId handle.turnId officialTurnId now)
      { p with cancellationReservations := p.cancellationReservations.erase handle.sessionId }))
  else
    perform (.writeFence handle.sessionId { sharedState with
      cancellation := some (observedFence handle observed), rejectedTurnIds := addIds rejectedTurnIds observed })
  throw error

/-- The `try` of `cancelTurnWithExclusiveLease`, once the fence is up. -/
def interruptTurn (sharedState : OmnigentSessionMutationFenceState) (rejectedTurnIds : List Text) : Async ν ℕ := do
  let interrupted ← Process.attempt (do
    let ack ← perform (.interrupt handle.sessionId)
    Async.sync (confirmInterrupt handle ack))
  match interrupted with
  | .error error => failCancellation handle sharedState rejectedTurnIds error
  | .ok (observed,cancellationProofObserved) =>
    let rejectedTurnIds := addIds rejectedTurnIds observed
    match ← Process.attempt (settleInterrupt handle sharedState rejectedTurnIds observed cancellationProofObserved) with
    | .ok cancelled => return cancelled
    | .error error => failCancellation handle sharedState rejectedTurnIds error

def cancelTurnWithExclusiveLease (options : OmnigentHttpClientOptions) : Async ν ℕ := do
  let sharedState ← readSharedState options handle.sessionId
  Async.sync (admitCancellation handle sharedState)
  let snapshot ← perform (.getSession handle.sessionId)
  let fence ← Async.sync (fenceCancellation handle snapshot)
  let rejectedTurnIds := addIds (addIds [] sharedState.rejectedTurnIds) (handle.turnId :: fence.officialTurnIds)
  perform (.writeFence handle.sessionId { sharedState with
    cancellation := some fence, rejectedTurnIds := rejectedTurnIds })
  interruptTurn handle sharedState rejectedTurnIds

def cancelTurn (options : OmnigentHttpClientOptions) : Async ν ℕ := do
  if options.withExclusiveSessionLease && options.sessionMutationFenceStore then
    Async.sync (reserveCancellation handle)
    Process.finally' (withExclusiveSessionLease handle.sessionId (cancelTurnWithExclusiveLease handle options))
      (Async.sync (Segment.change (releaseReservation handle)))
  else
    throw (providerFailure .backendCapabilityMissing .turn false (Text.of
      "Omnigent cancellation requires a shared session lease and mutation fence store because interrupt is session-scoped."))

end Cancel

section Close
variable {ν : Type} (options : OmnigentHttpClientOptions) (sessionId : Text)

def admitClose (sharedState : OmnigentSessionMutationFenceState) : Segment ν Unit := do
  Segment.change (fun p => p.installSharedSessionMutationState sessionId sharedState)
  Segment.require sharedState.cancellation.isNone (stateConflict .session
    (Text.of "Session " ++ sessionId ++ Text.of " is awaiting cancellation reconciliation."))

/-- The stop request, and the durable mark that it was accepted. -/
def stopSession (sharedState : OmnigentSessionMutationFenceState) : Async ν Unit := do
  let ack ← perform (.stopSession sessionId)
  match controlEventFailure ack with
  | some error => throw error
  | none => perform (.writeFence sessionId { sharedState with closing := false, closed := true })

def closeSessionWithExclusiveLease : Async ν Unit := do
  let sharedState ← readSharedState options sessionId
  Async.sync (admitClose sessionId sharedState)
  if !sharedState.closed then
    perform (.writeFence sessionId { sharedState with closing := true })
    match ← Process.attempt (stopSession sessionId sharedState) with
    | .ok () =>
      let now ← perform .now
      Async.sync (Segment.change (fun p => p.updateSession sessionId (fun session =>
        { session with activeTurnId := none, state := .closed, updatedAt := now })))
    | .error error =>
      if isPolicyDenied error then
        perform (.writeFence sessionId sharedState)
      throw error

def closeSession : Async ν Unit := do
  if options.withExclusiveSessionLease && options.sessionMutationFenceStore then
    withExclusiveSessionLease sessionId (closeSessionWithExclusiveLease options sessionId)
  else
    throw (providerFailure .backendCapabilityMissing .session false (Text.of
      "Omnigent close requires a shared session lease and mutation fence store because stop_session is session-scoped."))

end Close

section Reading
variable {ν : Type} (options : OmnigentHttpClientOptions) (sessionId : Text)

/-- The tracked info after a snapshot. -/
def refreshInfo (snapshot : OmnigentSessionSnapshot ν) : Segment ν (AgentSessionInfo ν) := fun p =>
  match p.sessions.get? sessionId with
  | none => (.error (providerFailure .validation .session false
      (Text.of "Session " ++ sessionId ++ Text.of " is not tracked locally.")),p)
  | some existing =>
    let resolved := resolveSessionInfo existing snapshot (p.shouldPreserveActiveIdentity sessionId snapshot)
    (.ok resolved,p.setSession sessionId resolved)

def getSessionInfo : Async ν (AgentSessionInfo ν) := do
  refreshSharedSessionMutationState options sessionId
  let snapshot ← perform (.getSession sessionId)
  Async.sync (refreshInfo sessionId snapshot)

variable [JsNumber ν] (isDatetime : Text → Bool)

/-- The persisted events, once the turns are reconciled with the items and the snapshot. -/
def mapHistory (snapshot : OmnigentSessionSnapshot ν) (items : List (OmnigentConversationItem ν)) :
    Segment ν (MappedOmnigentHistory ν) := do
  let mapped ← Segment.ofOption (mapOmnigentConversationHistory isDatetime sessionId items none)
  Segment.change (fun p =>
    (p.refreshTrackedSession sessionId snapshot (p.shouldPreserveActiveIdentity sessionId snapshot)).applyMappedHistoryState
      sessionId mapped.runtimeEvents)
  return mapped

/-- The part of `readHistory` after its requests. -/
def readHistorySegment (afterSequence limit : Option ℕ) (snapshot : OmnigentSessionSnapshot ν)
    (items : List (OmnigentConversationItem ν)) : Segment ν (SessionHistory ν) := do
  reconcileTurnsFromHistory sessionId none items
  reconcilePendingTurnsFromSnapshot sessionId none snapshot items
  let mapped ← mapHistory sessionId isDatetime snapshot items
  Segment.take (fun p =>
    let read := p.replay.replayHistory sessionId mapped.runtimeEvents afterSequence limit
    (read.1,{ p with replay := read.2 }))

def readHistory (afterSequence limit : Option ℕ) : Async ν (SessionHistory ν) := do
  refreshSharedSessionMutationState options sessionId
  let items ← perform (.getHistory sessionId)
  let snapshot ← perform (.getSession sessionId)
  Async.sync (readHistorySegment sessionId isDatetime afterSequence limit snapshot items)

end Reading
end OmniagentPlus.OmnigentTransport
