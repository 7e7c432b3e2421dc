import OmniagentPlus.OmnigentTransport.ProviderControls

/-! `streamEvents` of `OmnigentHttpProvider`: the history and then the live events of a session, and
what each does to the books. -/
namespace OmniagentPlus.OmnigentTransport
open OmniagentPlus.Foundation OmniagentPlus.CoreContracts

section Fences
variable {ν : Type} (options : OmnigentHttpClientOptions) (sessionId : Text)

def resolveSharedCancellationFence (cancelledTurnId : Text) (officialTurnId : Option Text) : Async ν Unit := do
  if options.withExclusiveSessionLease then
    withExclusiveSessionLease sessionId (do
      let state ← readSharedState options sessionId
      if state.cancellation.any (fun fence => decide (fence.turnId = cancelledTurnId)) then
        perform (.writeFence sessionId {
          closed := state.closed
          rejectedTurnIds := addIds (addIds [] state.rejectedTurnIds)
            (cancelledTurnId :: (Text.truthy officialTurnId).toList) }))

def reopenSharedCancellationFence (cancelledTurnId : Text) : Async ν Unit := do
  if options.withExclusiveSessionLease then
    withExclusiveSessionLease sessionId (do
      let state ← readSharedState options sessionId
      if !(state.closed || state.closing || state.cancellation.isSome) then
        perform (.writeFence sessionId { state with
          cancellation := some ⟨true,[],cancelledTurnId⟩
          rejectedTurnIds := addIds (addIds [] state.rejectedTurnIds) [cancelledTurnId] }))

end Fences

section Opening
variable {ν : Type} (sessionId : Text)

/-- `addOpenStream` of a new stream, which has a normalizer of its own. -/
def addOpenStream (p : OmnigentHttpProvider ν) : ℕ × OmnigentHttpProvider ν :=
  let stream := p.streamOrdinal + 1
  let normalizer := newOmnigentSseNormalizer sessionId
    (some (keyPrefix sessionId ++ Text.of "stream:" ++ decimal stream))
  (stream,{ p with
    streamOrdinal := stream
    openStreams := p.openStreams.set sessionId (((p.openStreams.get? sessionId).getD .empty).set stream normalizer) })

def removeOpenStream (stream : ℕ) (p : OmnigentHttpProvider ν) : OmnigentHttpProvider ν :=
  match p.openStreams.get? sessionId with
  | some streams =>
    let rest := streams.erase stream
    { p with openStreams := if rest.entries.isEmpty then p.openStreams.erase sessionId
        else p.openStreams.set sessionId rest }
  | none => p

/-- The rejected turns of the session are made known to a new stream. -/
def announceRejectedTurns (stream : ℕ) (p : OmnigentHttpProvider ν) : OmnigentHttpProvider ν :=
  (p.rejectedTurnKeys.keys.filter (hasKeyPrefix sessionId)).foldl (fun q rejectedKey =>
    let rejectedTurnId := afterKeyPrefix sessionId rejectedKey
    q.onStream sessionId stream (fun s => if p.cancelledTurnQuarantineKeys.has rejectedKey then
      s.quarantineFallbackTurnId rejectedTurnId else s.rejectTurnId rejectedTurnId)) p

/-- What a stream starts from: the active turn and the provisional ones. -/
def prepareStream (stream : ℕ) (p : OmnigentHttpProvider ν) : (Option Text × List Text) × OmnigentHttpProvider ν :=
  let provisionalTurnIds := (p.provisionalTurnOrder.get? sessionId).getD []
  ((p.activeTurnId sessionId,provisionalTurnIds),provisionalTurnIds.foldl (fun p turnId =>
    p.onStream sessionId stream (fun s => s.setFallbackTurnId (some turnId))) (announceRejectedTurns sessionId stream p))

/-- Pending inputs have no response to fall back to. -/
def removePendingFallbacks (stream : ℕ) (snapshot : OmnigentSessionSnapshot ν) (p : OmnigentHttpProvider ν) :
    OmnigentHttpProvider ν :=
  let quarantined := fun turnId => p.cancelledTurnQuarantineKeys.has (sessionKey sessionId turnId)
  let queued := if snapshot.pendingInputs.isEmpty then [] else
    ((p.provisionalTurnOrder.get? sessionId).getD []).filter (fun turnId =>
      p.queuedOnlyTurnKeys.has (sessionKey sessionId turnId))
  ((snapshot.pendingInputs ++ queued).filter (fun turnId => !quarantined turnId)).foldl (fun p turnId =>
    p.onStream sessionId stream (fun s => s.removeFallbackTurnId turnId)) p

/-- The response that the server works on, as the stream starts. -/
def setActiveResponse (stream : ℕ) (snapshot : OmnigentSessionSnapshot ν) (activeTurnId : Option Text)
    (provisionalTurnIds : List Text) (p : OmnigentHttpProvider ν) : OmnigentHttpProvider ν :=
  let bound := match Text.truthy snapshot.activeResponseId with
    | some id => if (p.turns.get? (sessionKey sessionId id)).isSome then
        p.onStream sessionId stream (fun s => s.bindResponseId id id) else p
    | none => p
  bound.onStream sessionId stream (fun s => s.setActiveResponseId
    (snapshot.activeResponseId.or (if provisionalTurnIds.isEmpty then activeTurnId else none)))

variable [JsNumber ν] (isDatetime : Text → Bool)

/-- The part of `streamEvents` between its requests and its first event. -/
def openHistory (stream : ℕ) (afterSequence : Option ℕ) (prepared : Option Text × List Text)
    (snapshot : OmnigentSessionSnapshot ν) (items : List (OmnigentConversationItem ν)) :
    Segment ν (MappedOmnigentHistory ν × List (RuntimeEventEnvelope ν)) := do
  reconcileTurnsFromHistory sessionId (some stream) items
  reconcilePendingTurnsFromSnapshot sessionId (some stream) snapshot items
  Segment.change (fun p => setActiveResponse sessionId stream snapshot prepared.1 prepared.2
    (removePendingFallbacks sessionId stream snapshot p))
  let mapped ← mapHistory sessionId isDatetime snapshot items
  let events ← Segment.take (fun p =>
    let replayEvents := match afterSequence with
      | none => mapped.runtimeEvents
      | some after => p.replay.trimDeliveredHistoryText sessionId mapped.runtimeEvents after none
    let resequenced := p.replay.resequenceRuntimeEvents sessionId replayEvents 0
    (resequenced.1,{ p with replay := resequenced.2 }))
  return (mapped,events.filter (fun event => decide (afterSequence.getD 0 < event.sequence)))

/-- The number at which the mapper of the live events starts. -/
def startingSequence (afterSequence : Option ℕ) (p : OmnigentHttpProvider ν) : ℕ :=
  max (((p.replay.nextEventSequences.get? sessionId).getD 1) - 1) (afterSequence.getD 0) + 1

end Opening

section Live
variable {ν : Type} (sessionId : Text)

/-- The next frame as an event; a time that is out of range is thrown. -/
def normalizeFrame [JsNumber ν] (stream : ℕ) (tagged : OmnigentTaggedSseEvent ν) (now : Text) :
    Segment ν (Option (OmnigentRawEvent ν)) := do
  match ← Segment.look (fun p => (p.openStreams.get? sessionId).bind (·.get? stream)) with
  | none => return none
  | some normalizer =>
    Segment.change (fun p => p.onStream sessionId stream (fun _ => (normalizer.normalize tagged now).1))
    return some (← Segment.ofOption (normalizer.normalize tagged now).2)

/-- A turn that starts is the latest one while none is active. -/
def noteStartedTurn (event : OmnigentRawEvent ν) (p : OmnigentHttpProvider ν) : OmnigentHttpProvider ν :=
  match Text.truthy event.turnId with
  | some turnId =>
    if event.turnAliasId = none ∧ p.activeTurnId sessionId = none ∧
        (event.type = .stream .responseCreated ∨ event.type = .stream .turnStarted) then
      { p with latestTurnIds := p.latestTurnIds.set sessionId turnId }
    else p
  | none => p

/-- The provisional turn that a terminal event names is failed or taken off the order. -/
def endCandidate (event : OmnigentRawEvent ν) (p : OmnigentHttpProvider ν) : OmnigentHttpProvider ν :=
  match Text.truthy event.turnId with
  | some turnId =>
    let failed := if event.type = .stream .responseFailed ∧ event.turnAliasId = none then
        p.failProvisionalTurnCandidate sessionId turnId event.occurredAt
      else (false,p)
    if failed.1 then failed.2 else failed.2.retireProvisionalTurnCandidate sessionId turnId
  | none => p

/-- The provisional turn that an event names along with the official one is that. -/
def reconcileEvent (event : OmnigentRawEvent ν) (p : OmnigentHttpProvider ν) : OmnigentHttpProvider ν :=
  match Text.truthy event.turnAliasId, Text.truthy event.turnId with
  | some aliasId, some turnId => if event.turnAliasConfirmed ≠ some false then
      p.reconcileTurn sessionId aliasId turnId event.occurredAt else p
  | _, _ => p

variable [JsNumber ν]

/-- The end of a turn, for the session that it is the active one of. -/
def endActiveTurn (event : OmnigentRawEvent ν) (events : List (RuntimeEventEnvelope ν)) (p : OmnigentHttpProvider ν) :
    OmnigentHttpProvider ν :=
  if isFailureTerminal event then p.failActiveTurn sessionId event.occurredAt
    (some ((mappedFailure events).getD (OmnigentEventMapper.turnFailure event))) event.turnId
  else p.clearActiveTurn sessionId event.occurredAt event.turnId

/-- What an event does to the session once its turn is reconciled. -/
def applyToSession (event : OmnigentRawEvent ν) (events : List (RuntimeEventEnvelope ν)) (p : OmnigentHttpProvider ν) :
    OmnigentHttpProvider ν :=
  let noted := noteStartedTurn sessionId event p
  let concerns := noted.eventConcernsActiveTurn sessionId event
  if event.terminal = some true then
    let ended := endCandidate sessionId event noted
    if concerns then endActiveTurn sessionId event events ended else ended
  else
    match concerns, Text.truthy event.turnId with
    | true, some turnId => noted.setActiveTurn sessionId turnId event.occurredAt
    | _, _ => noted

/-- What an event does to the session and its turns; `events` are the runtime events it was mapped to. -/
def applyEvent (event : OmnigentRawEvent ν) (events : List (RuntimeEventEnvelope ν)) (p : OmnigentHttpProvider ν) :
    OmnigentHttpProvider ν :=
  let reconciled := reconcileEvent sessionId event p
  if event.terminal = some true ∨ events ≠ [] ∨ stateMutationRequiresRuntimeEvent event = false then
    applyToSession sessionId event events reconciled
  else reconciled

variable (isDatetime : Text → Bool)

/-- The runtime events of a live event under their numbers; those of a rejected turn are left out. -/
def mapLiveEvent (afterSequence : Option ℕ) (mapper : OmnigentEventMapper) (event : OmnigentRawEvent ν) :
    Segment ν (OmnigentEventMapper × List (RuntimeEventEnvelope ν)) := do
  if ← Segment.look (fun p => p.eventIsRejected sessionId event) then return (mapper,[])
  else
    let mappedEvents ← Segment.ofOption (mapper.map isDatetime event).2
    let resequenced ← Segment.take (fun p =>
      let replayEvents := match afterSequence with
        | none => mappedEvents
        | some after => p.replay.trimDeliveredHistoryText sessionId mappedEvents after (sourceMessageId event)
      let resequenced := p.replay.resequenceRuntimeEvents sessionId replayEvents (afterSequence.getD 0)
      (resequenced.1,{ p with replay := resequenced.2 }))
    let events := resequenced.filter (fun e => decide (afterSequence.getD 0 < e.sequence))
    Segment.change (applyEvent sessionId event events)
    return ((mapper.map isDatetime event).1,events)

/-- Each event is recorded as delivered and then handed to the reader. -/
def deliverEvents (messageId : Option Text) : List (RuntimeEventEnvelope ν) → Async ν Unit
  | [] => pure ()
  | event :: events => do
    Async.sync (Segment.change (fun p => { p with
      replay := p.replay.recordDeliveredText sessionId [event] messageId }))
    perform (.deliver event)
    deliverEvents messageId events

variable (options : OmnigentHttpClientOptions)

/-- The turns that an event reopens or lets go, with the shared fence. -/
def settleFences (stream : ℕ) (items : List (OmnigentConversationItem ν)) (event : OmnigentRawEvent ν) :
    Async ν Unit := do
  if let some turnId := ← Async.sync (recordConsumedPendingItem sessionId stream event items) then
    reopenSharedCancellationFence options sessionId turnId
  if let some (cancelledTurnId,officialTurnId) := ← Async.sync (Segment.take (fun p =>
      p.consumeCancelledTurnQuarantine sessionId event)) then
    resolveSharedCancellationFence options sessionId cancelledTurnId officialTurnId

/-- The loop over the frames of the stream. -/
def liveLoop (stream : ℕ) (afterSequence : Option ℕ) (items : List (OmnigentConversationItem ν)) :
    OmnigentEventMapper → List (OmnigentTaggedSseEvent ν × Text) → Async ν Unit
  | _, [] => pure ()
  | mapper, (tagged,now) :: frames => do
    perform .nextFrame
    match ← Async.sync (normalizeFrame sessionId stream tagged now) with
    | none => pure ()
    | some event =>
      if event.type = .stream .responseElicitationResolved then liveLoop stream afterSequence items mapper frames
      else
        settleFences sessionId options stream items event
        let (mapper',events) ← Async.sync (mapLiveEvent sessionId isDatetime afterSequence mapper event)
        deliverEvents sessionId (sourceMessageId event) events
        liveLoop stream afterSequence items mapper' frames

/-- The body of `streamEventsUntilCancelled`. -/
def streamBody (stream : ℕ) (afterSequence : Option ℕ) (frames : List (OmnigentTaggedSseEvent ν × Text)) :
    Async ν Unit := do
  if options.withExclusiveSessionLease then
    let sharedState ← withExclusiveSessionLease sessionId (readSharedState options sessionId)
    Async.sync (Segment.change (fun p => p.installSharedSessionMutationState sessionId sharedState))
  let prepared ← Async.sync (Segment.take (prepareStream sessionId stream))
  let items ← perform (.getHistory sessionId)
  let snapshot ← perform (.getSession sessionId)
  let (mapped,events) ← Async.sync (openHistory sessionId isDatetime stream afterSequence prepared snapshot items)
  deliverEvents sessionId none events
  let start ← Async.sync (Segment.look (startingSequence sessionId afterSequence))
  liveLoop sessionId isDatetime options stream afterSequence items
    (newOmnigentEventMapper sessionId (mapped.mapperOptions start)) frames

/-- The server's frames, with the times at which they are read, are those it will send. -/
def streamEvents (afterSequence : Option ℕ) : Async ν Unit := do
  let frames ← perform (.openSessionStream sessionId)
  let stream ← Async.sync (Segment.take (addOpenStream sessionId))
  Process.finally' (streamBody sessionId isDatetime options stream afterSequence frames)
    (Async.sync (Segment.change (removeOpenStream sessionId stream)))

end Live
end OmniagentPlus.OmnigentTransport
