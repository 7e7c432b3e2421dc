import OmniagentPlus.OmnigentTransport.SessionBooks

/-! The stretches of `http-provider.ts` between two suspensions. Each runs to its end at once on the
provider, and may throw on the way. -/
namespace OmniagentPlus.OmnigentTransport
open OmniagentPlus.Foundation OmniagentPlus.CoreContracts

section Basics
variable {ν α : Type}

/-- A change of the provider that does not throw. -/
def Segment.change (f : OmnigentHttpProvider ν → OmnigentHttpProvider ν) : Segment ν Unit := modify f

/-- A look at the provider. -/
def Segment.look (f : OmnigentHttpProvider ν → α) : Segment ν α := do return f (← get)

/-- A change that gives something back. -/
def Segment.take (f : OmnigentHttpProvider ν → α × OmnigentHttpProvider ν) : Segment ν α := fun p => ((.ok (f p).1),(f p).2)

def Segment.require (c : Bool) (e : ProviderError ν) : Segment ν Unit := if c then pure () else throw e

/-- A check of the provider as it is. -/
def Segment.check (f : OmnigentHttpProvider ν → Bool) (e : ProviderError ν) : Segment ν Unit := do
  Segment.require (← Segment.look f) e

/-- What is thrown where there is no value is some other error. -/
def Segment.ofOption : Option α → Segment ν α
  | some a => pure a
  | none => throw .other

end Basics

section Reconciliation
variable {ν : Type} [JsNumber ν] (sessionId : Text) (stream : Option ℕ)

/-- `stream?.bindResponseId(...)` and `reconcileTurn` for an item of the history. -/
def reconcileItem (item : OmnigentConversationItem ν) (provisionalTurnId : Text) : Segment ν Unit := do
  Segment.change (fun p => p.onGivenStream sessionId stream (fun s => s.bindResponseId item.response_id provisionalTurnId))
  let updatedAt ← Segment.ofOption (itemTimestamp item)
  Segment.change (fun p => p.reconcileTurn sessionId provisionalTurnId item.response_id updatedAt)

/-- The turn that an item of the history belongs to. -/
def provisionalTurnOfItem (p : OmnigentHttpProvider ν) (item : OmnigentConversationItem ν) : Option Text :=
  let itemKey := sessionKey sessionId item.id
  Text.truthy (if (p.turns.get? itemKey).isSome then some item.id else p.pendingItemTurnIds.get? itemKey)

def reconcileTurnsFromHistory : List (OmnigentConversationItem ν) → Segment ν Unit
  | [] => pure ()
  | item :: items => do
    match ← Segment.look (fun p => provisionalTurnOfItem sessionId p item) with
    | some provisionalTurnId =>
      Segment.change (fun p => { p with
        claimedHistoryItemKeys := p.claimedHistoryItemKeys.add (sessionKey sessionId item.id) })
      reconcileItem sessionId stream item provisionalTurnId
    | none => pure ()
    reconcileTurnsFromHistory items

def observeItems (items : List (OmnigentConversationItem ν)) (keys : KeySet) : KeySet :=
  items.foldl (fun keys item => keys.add (sessionKey sessionId item.id)) keys

/-- The items are of the past once no turn waits for its name. -/
def observeHistory (items : List (OmnigentConversationItem ν)) : Segment ν Unit :=
  Segment.change (fun p => if ((p.provisionalTurnOrder.get? sessionId).getD []).isEmpty then
    { p with observedHistoryItemKeys := observeItems sessionId items p.observedHistoryItemKeys } else p)

/-- The turns that the server no longer lists as pending. -/
def consumedPendingTurns (p : OmnigentHttpProvider ν) (snapshot : OmnigentSessionSnapshot ν) : List Text :=
  ((p.provisionalTurnOrder.get? sessionId).getD []).filter (fun pendingId =>
    (p.nativePendingTurnKeys.has (sessionKey sessionId pendingId) && decide (pendingId ∉ snapshot.pendingInputs)) ||
    (snapshot.pendingInputs.isEmpty && p.queuedOnlyTurnKeys.has (sessionKey sessionId pendingId)))

/-- The messages of the user that no turn has. -/
def unclaimedUserMessages (p : OmnigentHttpProvider ν) (items : List (OmnigentConversationItem ν)) :
    List (OmnigentConversationItem ν) :=
  items.filter (fun item => decide (item.type = .message) && decide (itemRole item = some (Text.of "user")) &&
    !p.claimedHistoryItemKeys.has (sessionKey sessionId item.id) &&
    (p.pendingItemTurnIds.get? (sessionKey sessionId item.id)).isNone &&
    !p.observedHistoryItemKeys.has (sessionKey sessionId item.id))

def bindConsumedTurns : List (Text × OmnigentConversationItem ν) → Segment ν Unit
  | [] => pure ()
  | (pendingId,item) :: rest => do
    Segment.change (fun p => { p with
      pendingItemTurnIds := p.pendingItemTurnIds.set (sessionKey sessionId item.id) pendingId })
    reconcileItem sessionId stream item pendingId
    bindConsumedTurns rest

def reconcilePendingTurnsFromSnapshot (snapshot : OmnigentSessionSnapshot ν)
    (items : List (OmnigentConversationItem ν)) : Segment ν Unit := do
  let consumedPending ← Segment.look (fun p => consumedPendingTurns sessionId p snapshot)
  let candidates ← Segment.look (fun p => unclaimedUserMessages sessionId p items)
  if consumedPending.isEmpty then observeHistory sessionId items
  else if candidates.length = consumedPending.length then
    bindConsumedTurns sessionId stream (consumedPending.zip candidates)
    observeHistory sessionId items
  else pure ()

/-- The cancelled turn that comes back when its input is consumed after all. -/
def recordConsumedPendingItem (stream : ℕ) (event : OmnigentRawEvent ν) (items : List (OmnigentConversationItem ν)) :
    Segment ν (Option Text) := do
  match decide (event.type = .stream .sessionInputConsumed), Text.truthy event.cleared_pending_id,
    Text.truthy event.consumed_item_id with
  | true, some pendingId, some itemId =>
    let pendingTurnKey := sessionKey sessionId pendingId
    if ← Segment.look (fun p => p.rejectedTurnKeys.has pendingTurnKey || p.cancelledTurnQuarantineKeys.has pendingTurnKey) then
      Segment.change (fun p => { p with
        cancelledTurnQuarantineKeys := p.cancelledTurnQuarantineKeys.add pendingTurnKey
        cancelledTurnAwaitingIdentityKeys := p.cancelledTurnAwaitingIdentityKeys.add pendingTurnKey
        }.onStreams sessionId (fun s => s.quarantineFallbackTurnId pendingId))
      return some pendingId
    else
      Segment.change (fun p => { p with
        pendingItemTurnIds := p.pendingItemTurnIds.set (sessionKey sessionId itemId) pendingId })
      match items.find? (fun item => decide (item.id = itemId)) with
      | some item => reconcileItem sessionId (some stream) item pendingId
      | none => Segment.change (fun p => p.onStream sessionId stream (fun s => s.setFallbackTurnId (some pendingId)))
      return none
  | _, _, _ => return none

end Reconciliation

section Sending
variable {ν : Type} (options : OmnigentHttpClientOptions) (request : SendTurnRequest)

/-- The shared fence is installed, and lets no turn through when it closes the session. -/
def heedFence : Option OmnigentSessionMutationFenceState → Segment ν Unit
  | none => pure ()
  | some state => do
    Segment.change (fun p => p.installSharedSessionMutationState request.sessionId state)
    Segment.require (!(state.closed || state.closing)) (stateConflict .session
      (Text.of "Session " ++ request.sessionId ++ Text.of " is closing or closed."))

/-- What is thrown where the session has an active turn. -/
def activeTurnFailure (info : Option (AgentSessionInfo ν)) : ProviderError ν :=
  providerFailure .concurrencyLimit .turn true (Text.of "Session " ++ request.sessionId ++
    match Text.truthy (info.bind (·.activeTurnId)) with
    | some activeTurnId => Text.of " already has active turn " ++ activeTurnId ++ Text.of "."
    | none => Text.of " already has active work.")

/-- The checks of `sendTurnWithExclusiveLease` on what is known locally, after the shared fence is read. -/
def admitTurn (sharedState : Option OmnigentSessionMutationFenceState) : Segment ν Unit := do
  let sessionId := request.sessionId
  let session := Text.of "Session " ++ sessionId
  heedFence request sharedState
  Segment.check (fun p => (p.cancellationReservations.get? sessionId).isNone)
    (stateConflict .turn (session ++ Text.of " has a cancellation in progress."))
  Segment.check (fun p => !p.hasCancelledTurnQuarantine sessionId)
    (stateConflict .turn (session ++ Text.of " is awaiting cancellation reconciliation."))
  Segment.check (fun p => !p.isClosed sessionId) (stateConflict .session (session ++ Text.of " is closed."))
  let info ← Segment.look (fun p => p.sessions.get? sessionId)
  Segment.require (options.allowQueuedTurns || decide (info.map (·.state) ≠ some .turnActive))
    (activeTurnFailure request info)

/-- The check of the server's own view of the session. -/
def admitUpstream (snapshot : OmnigentSessionSnapshot ν) : Segment ν Unit :=
  Segment.require ((Text.truthy snapshot.activeResponseId).isNone && snapshot.pendingInputs.isEmpty &&
      decide (mapSessionState snapshot.status ≠ .turnActive))
    (providerFailure .concurrencyLimit .turn true
      (Text.of "Session " ++ request.sessionId ++ Text.of " already has upstream active or pending work."))

/-- `omnigent:${request.sessionId}:${request.idempotencyKey}` -/
def provisionalTurnId : Text := Text.of "omnigent:" ++ sessionKey request.sessionId request.idempotencyKey

/-- What `sendTurnOnce` keeps while its request is under way. -/
structure RegisteredTurn (ν : Type) where
  handle : ℕ
  previousLatestTurnId : Option Text
  previousSession : Option (AgentSessionInfo ν)

/-- The first part of `sendTurnOnce`. -/
def registerTurn (now : Text) (p : OmnigentHttpProvider ν) : RegisteredTurn ν × OmnigentHttpProvider ν :=
  let sessionId := request.sessionId
  let turnId := provisionalTurnId request
  let turnKey := sessionKey sessionId turnId
  let handle : MutableTurnHandle := {
    createdAt := now, idempotencyKey := request.idempotencyKey, sessionId := sessionId, state := .queued
    turnId := turnId, updatedAt := now }
  let retryingRejectedTurn := p.rejectedTurnKeys.has turnKey
  let registered := { p with
    rejectedTurnKeys := p.rejectedTurnKeys.erase turnKey
    handles := p.handles ++ [handle]
    turns := p.turns.set turnKey p.handles.length
    provisionalTurnKeys := p.provisionalTurnKeys.add turnKey
    provisionalTurnOrder := p.provisionalTurnOrder.set sessionId
      ((p.provisionalTurnOrder.get? sessionId).getD [] ++ [turnId])
    latestTurnIds := p.latestTurnIds.set sessionId turnId }
  let active := registered.updateSession sessionId (fun session =>
    { session with activeTurnId := some turnId, state := .turnActive, updatedAt := now })
  (⟨p.handles.length,p.latestTurnIds.get? sessionId,p.sessions.get? sessionId⟩,
    active.onStreams sessionId (fun stream =>
      (if retryingRejectedTurn then stream.restoreRejectedTurnId turnId else stream).setFallbackTurnId (some turnId)))

/-- The turn that a handle names now. -/
def handleTurnId (p : OmnigentHttpProvider ν) (handle : ℕ) : Option Text := (p.handles[handle]?).map (·.turnId)

/-- `provisionalOrder` with the turn in it, and the turn among those that are only queued. -/
def queueTurn (turnId : Text) (p : OmnigentHttpProvider ν) : OmnigentHttpProvider ν :=
  let order := (p.provisionalTurnOrder.get? request.sessionId).getD []
  { p with
    provisionalTurnOrder := if turnId ∈ order then p.provisionalTurnOrder
      else p.provisionalTurnOrder.set request.sessionId (order ++ [turnId])
    queuedOnlyTurnKeys := p.queuedOnlyTurnKeys.add (sessionKey request.sessionId turnId) }

/-- The item that a message became is claimed. -/
def claimItem (item_id : Option Text) (p : OmnigentHttpProvider ν) : OmnigentHttpProvider ν :=
  match Text.truthy item_id with
  | some itemId =>
    { p with claimedHistoryItemKeys := p.claimedHistoryItemKeys.add (sessionKey request.sessionId itemId) }
  | none => p

/-- A turn that still has its provisional name gets the acknowledged one. -/
def nameAcknowledgedTurn (handle : ℕ) (item_id pending_id : Option Text) (p : OmnigentHttpProvider ν) :
    OmnigentHttpProvider ν :=
  let turnId := provisionalTurnId request
  match Text.truthy (item_id.or pending_id) with
  | some acknowledgedTurnId =>
    if handleTurnId p handle = some turnId ∧ (p.handles[handle]?).map (·.state) ≠ some .failed then
      p.replaceProvisionalTurnId request.sessionId turnId acknowledgedTurnId pending_id.isSome
    else p
  | none => p

/-- What waits in the queue of the server. -/
def notePendingInput (handle : ℕ) (item_id pending_id : Option Text) (p : OmnigentHttpProvider ν) :
    OmnigentHttpProvider ν :=
  match Text.truthy pending_id, Text.truthy item_id with
  | some pendingId, _ =>
    let unstreamed := p.onStreams request.sessionId (fun stream => stream.removeFallbackTurnId pendingId)
    if handleTurnId unstreamed handle = some pendingId then
      { unstreamed with
        nativePendingTurnKeys := unstreamed.nativePendingTurnKeys.add (sessionKey request.sessionId pendingId) }
    else unstreamed
  | none, some _ => p
  | none, none => if handleTurnId p handle = some (provisionalTurnId request) then
      queueTurn request (provisionalTurnId request) p else p

/-- An accepted message: the item or the pending input that it became names the turn from now on. -/
def acknowledgeTurn (handle : ℕ) (item_id pending_id : Option Text) (p : OmnigentHttpProvider ν) :
    OmnigentHttpProvider ν :=
  notePendingInput request handle item_id pending_id
    (nameAcknowledgedTurn request handle item_id pending_id (claimItem request item_id p))

/-- How the `catch` of `sendTurnOnce` goes on. -/
inductive FailedSend
  | persist (currentTurnId : Text)
  | rolledBack
  | keptHandle

/-- `rollbackTurnRegistration` of the send. -/
def rollbackSend (registered : RegisteredTurn ν) (p : OmnigentHttpProvider ν) : OmnigentHttpProvider ν :=
  let turnId := provisionalTurnId request
  p.rollbackTurnRegistration request.sessionId turnId ((handleTurnId p registered.handle).getD turnId)
    registered.previousLatestTurnId registered.previousSession

/-- The `catch` of `sendTurnOnce` up to where the rejected turn is made durable. -/
def failSend (registered : RegisteredTurn ν) (error : ProviderError ν) (p : OmnigentHttpProvider ν) :
    FailedSend × OmnigentHttpProvider ν :=
  let turnId := provisionalTurnId request
  let currentTurnId := (handleTurnId p registered.handle).getD turnId
  if isPolicyDenied error || !isNetworkError error then
    let rejected := p.rejectTurnIdentities request.sessionId turnId currentTurnId
    if isNonRetryableRuntimeFailure error || decide (currentTurnId ≠ turnId) then (.persist currentTurnId,rejected)
    else (.rolledBack,rollbackSend request registered rejected)
  else if currentTurnId ≠ turnId then (.keptHandle,p)
  else (.rolledBack,rollbackSend request registered p)

end Sending
end OmniagentPlus.OmnigentTransport
