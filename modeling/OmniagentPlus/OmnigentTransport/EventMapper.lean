import OmniagentPlus.OmnigentTransport.Types
import OmniagentPlus.Foundation.Dictionary
import Mathlib.Data.Finset.Insert
import Mathlib.Data.Finset.Lattice.Basic

/-! `event-mapper.ts`: raw events of a live stream as runtime events. A call gives the mapper
it leaves and the events, `none` where it throws. -/
namespace OmniagentPlus.OmnigentTransport
open OmniagentPlus.Foundation OmniagentPlus.CoreContracts

structure OmnigentHistoricalMessage where
  messageId : Text
  text : Text
  deriving DecidableEq, Repr

structure OmnigentEventMapper where
  sessionId : Text
  seenItemIds : Finset Text
  emittedStartedTurnIds : Finset Text
  emittedTerminalTurnIds : Finset Text
  emittedTextByMessageId : Dictionary Text Text
  emittedTextByTurnId : Dictionary Text Text
  emittedUnidentifiedTextByTurnId : Dictionary Text Text
  pendingMessageIdsByTurnId : Dictionary Text (List Text)
  historicalMessagesByTurnId : Dictionary Text (List OmnigentHistoricalMessage)
  historicalItemIds : Finset Text
  historicalTextByMessageId : Dictionary Text Text
  emittedToolCallIds : Finset Text
  emittedToolResultIds : Finset Text
  emittedSessionCreated : Bool
  legacySessionCreatedEvents : Bool
  nextSequence : ℕ

structure OmnigentEventMapperOptions where
  historicalMessagesByTurnId : Dictionary Text (List OmnigentHistoricalMessage) := .empty
  historicalTextByMessageId : Dictionary Text Text := .empty
  historicalToolCallIds : Finset Text := ∅
  historicalToolResultIds : Finset Text := ∅
  legacySessionCreatedEvents : Bool := false
  seenItemIds : Finset Text := ∅
  startingSequence : ℕ := 1
  startedTurnIds : Finset Text := ∅
  terminalTurnIds : Finset Text := ∅

/-- `new OmnigentEventMapper(sessionId, options)` -/
def newOmnigentEventMapper (sessionId : Text) (options : OmnigentEventMapperOptions) : OmnigentEventMapper where
  sessionId := sessionId
  seenItemIds := options.seenItemIds
  emittedStartedTurnIds := options.startedTurnIds
  emittedTerminalTurnIds := options.terminalTurnIds
  emittedTextByMessageId := .empty
  emittedTextByTurnId := .empty
  emittedUnidentifiedTextByTurnId := .empty
  pendingMessageIdsByTurnId := .empty
  historicalMessagesByTurnId := options.historicalMessagesByTurnId
  historicalItemIds := options.seenItemIds
  historicalTextByMessageId := options.historicalTextByMessageId
  emittedToolCallIds := options.historicalToolCallIds
  emittedToolResultIds := options.historicalToolResultIds
  emittedSessionCreated := false
  legacySessionCreatedEvents := options.legacySessionCreatedEvents
  nextSequence := options.startingSequence

abbrev MapOutcome (ν : Type) := OmnigentEventMapper × Option (List (RuntimeEventEnvelope ν))

section Handlers
variable {ν : Type}

def sessionCreatedState (rawEvent : OmnigentRawEvent ν) : AgentSessionState :=
  if rawEvent.status = some .failed then .failed
  else if rawEvent.status = some .launching ∨ rawEvent.status = some .running then .starting
  else if rawEvent.type = .stream .sessionCreated then .created else .idle

def defaultTurnMessage (rawEvent : OmnigentRawEvent ν) : Text :=
  rawEvent.message.getD (Text.of "Omnigent turn " ++ rawEvent.turnId.getD (Text.of "unknown"))

def assistantItemText (item : JsonRecord ν) : Text :=
  if Json.asString (Json.field item "role") = some (Text.of "assistant") then
    match Json.field item "content" with
    | some (.array blocks) => blocks.flatMap (fun block =>
        match block with
        | .object fields => (Json.asString (Json.field fields "text")).getD []
        | _ => [])
    | _ => []
  else []

/-- What `createEvent` is given. -/
structure EventDraft (ν : Type) where
  eventId : Text
  occurredAt : Text
  payload : RuntimeEventPayload ν
  terminal : Bool
  turnId : Option Text

variable [JsNumber ν] (isDatetime : Text → Bool)

namespace OmnigentEventMapper

def createEvent (m : OmnigentEventMapper) (event : EventDraft ν) : MapOutcome ν :=
  match createRuntimeEvent isDatetime
    ⟨event.eventId,m.nextSequence,m.sessionId,event.turnId,event.occurredAt,event.payload,.metadataOnly,event.terminal⟩ with
  | none => (m,none)
  | some created => ({ m with nextSequence := m.nextSequence + 1 },some [created])

/-- `return []` -/
def ignore (m : OmnigentEventMapper) : MapOutcome ν := (m,some [])

/-- The first part of `mapTextDelta`: a delta that names its message takes that message, or one
with such a text, off the historical messages of its turn. Gives the text still to come again. -/
def claimHistoricalMessage (m : OmnigentEventMapper) (rawEvent : OmnigentRawEvent ν) (messageId delta : Text) :
    OmnigentEventMapper × Option Text :=
  let remaining := m.historicalTextByMessageId.get? messageId
  match Text.truthy rawEvent.turnId with
  | none => (m,remaining)
  | some turnId =>
    let historicalMessages := (m.historicalMessagesByTurnId.get? turnId).getD []
    let exactMessageIndex := historicalMessages.findIdx? (fun h => decide (h.messageId = messageId))
    let exactTextIndex := historicalMessages.findIdx? (fun h => !delta.isEmpty && decide (h.text = delta))
    let compatibleMessageIndex := exactMessageIndex.or (exactTextIndex.or (historicalMessages.findIdx?
      (fun h => !delta.isEmpty && (delta.isPrefixOf h.text || delta.isSuffixOf h.text))))
    match compatibleMessageIndex with
    | none => (m,remaining)
    | some index =>
      let rest := historicalMessages.eraseIdx index
      let m := { m with historicalMessagesByTurnId := if rest.isEmpty then
        m.historicalMessagesByTurnId.erase turnId else m.historicalMessagesByTurnId.set turnId rest }
      match remaining, historicalMessages[index]? with
      | none, some historicalMessage =>
        ({ m with historicalTextByMessageId := m.historicalTextByMessageId.set messageId historicalMessage.text },
          some historicalMessage.text)
      | _, _ => (m,remaining)

/-- The text `next` is still to come again for the message. -/
def keepHistoricalText (m : OmnigentEventMapper) (messageId next : Text) : OmnigentEventMapper :=
  { m with historicalTextByMessageId := if next.isEmpty then
      m.historicalTextByMessageId.erase messageId else m.historicalTextByMessageId.set messageId next }

/-- The text that history has is not what comes: it is given up, and taken off a delta that
starts with it. -/
def forgetHistoricalText (m : OmnigentEventMapper) (messageId delta remaining : Text) :
    OmnigentEventMapper × Option Text :=
  let m := { m with historicalTextByMessageId := m.historicalTextByMessageId.erase messageId }
  if remaining.isPrefixOf delta then
    let delta := delta.drop remaining.length
    (m,if delta.isEmpty then none else some delta)
  else (m,some delta)

/-- The second part of `mapTextDelta`: what is left of the delta once the text that history has
is taken off, `none` where it is dropped. -/
def dropHistoricalText (m : OmnigentEventMapper) (messageId delta : Text) (remaining : Option Text) :
    OmnigentEventMapper × Option Text :=
  match remaining with
  | none => (m,some delta)
  | some remaining =>
    if !delta.isEmpty && delta.isPrefixOf remaining then
      (m.keepHistoricalText messageId (remaining.drop delta.length),none)
    else match Text.indexOf delta remaining with
      | some replayOffset =>
        if !delta.isEmpty && decide (replayOffset + delta.length = remaining.length) then
          (m.keepHistoricalText messageId (remaining.drop (replayOffset + delta.length)),none)
        else m.forgetHistoricalText messageId delta remaining
      | none => m.forgetHistoricalText messageId delta remaining

/-- `map.set(key, (map.get(key) ?? "") + text)` -/
def appendText (texts : Dictionary Text Text) (key text : Text) : Dictionary Text Text :=
  texts.set key ((texts.get? key).getD [] ++ text)

/-- The third part of `mapTextDelta`: the text emitted so far, by message and by turn. -/
def recordText (m : OmnigentEventMapper) (messageId turnId : Option Text) (delta : Text) : OmnigentEventMapper :=
  let m := match messageId with
    | none => m
    | some messageId =>
      let m := { m with emittedTextByMessageId := appendText m.emittedTextByMessageId messageId delta }
      match turnId with
      | none => m
      | some turnId =>
        let pendingMessageIds := (m.pendingMessageIdsByTurnId.get? turnId).getD []
        if messageId ∈ pendingMessageIds then m
        else { m with pendingMessageIdsByTurnId :=
          m.pendingMessageIdsByTurnId.set turnId (pendingMessageIds ++ [messageId]) }
  match turnId with
  | none => m
  | some turnId =>
    let m := { m with emittedTextByTurnId := appendText m.emittedTextByTurnId turnId delta }
    if messageId.isSome then m
    else { m with emittedUnidentifiedTextByTurnId := appendText m.emittedUnidentifiedTextByTurnId turnId delta }

def mapTextDelta (m : OmnigentEventMapper) (rawEvent : OmnigentRawEvent ν) : MapOutcome ν :=
  let delta := rawEvent.delta.getD []
  let messageId := Text.truthy rawEvent.message_id
  let (m,left) := match messageId with
    | none => (m,some delta)
    | some messageId =>
      let (m,remaining) := m.claimHistoricalMessage rawEvent messageId delta
      m.dropHistoricalText messageId delta remaining
  match left with
  | none => m.ignore
  | some delta =>
    let m := m.recordText messageId (Text.truthy rawEvent.turnId) delta
    m.createEvent isDatetime ⟨rawEvent.id,rawEvent.occurredAt,.textDelta delta,false,rawEvent.turnId⟩

/-- What a finished message still has to emit, and the place of a pending message it stands for. -/
def messageItemDelta (m : OmnigentEventMapper) (messageId : Option Text) (turnId text : Text) : Text × Option ℕ :=
  let directEmitted := messageId.bind m.emittedTextByMessageId.get?
  let pendingMessageIds := (m.pendingMessageIdsByTurnId.get? turnId).getD []
  let pendingMessageIndex := if directEmitted.isSome then
      pendingMessageIds.findIdx? (fun id => decide (id = messageId.getD []))
    else pendingMessageIds.findIdx? (fun id =>
      let pendingText := (m.emittedTextByMessageId.get? id).getD []
      !pendingText.isEmpty && (pendingText.isPrefixOf text || text.isPrefixOf pendingText))
  let correlatedEmitted := pendingMessageIndex.bind (fun index =>
    m.emittedTextByMessageId.get? ((pendingMessageIds[index]?).getD []))
  let emitted := if messageId.isSome then
      (directEmitted.or (correlatedEmitted.or (m.emittedUnidentifiedTextByTurnId.get? turnId))).getD []
    else (m.emittedTextByTurnId.get? turnId).getD []
  (if emitted.isPrefixOf text then text.drop emitted.length else if text.isPrefixOf emitted then [] else text,
    pendingMessageIndex)

def mapMessageItem (m : OmnigentEventMapper) (rawEvent : OmnigentRawEvent ν) (turnId : Text) (item : JsonRecord ν) :
    MapOutcome ν :=
  let text := assistantItemText item
  if text.isEmpty then m.ignore
  else
    let messageId := Text.truthy (Json.asString (Json.field item "id"))
    let (delta,pendingMessageIndex) := m.messageItemDelta messageId turnId text
    let m := match pendingMessageIndex with
      | none => m
      | some index =>
        let rest := ((m.pendingMessageIdsByTurnId.get? turnId).getD []).eraseIdx index
        { m with pendingMessageIdsByTurnId := if rest.isEmpty then
            m.pendingMessageIdsByTurnId.erase turnId else m.pendingMessageIdsByTurnId.set turnId rest }
    let m := match messageId with
      | none => m
      | some messageId => { m with
          emittedTextByMessageId := m.emittedTextByMessageId.set messageId text
          emittedUnidentifiedTextByTurnId := m.emittedUnidentifiedTextByTurnId.erase turnId }
    if delta.isEmpty then m.ignore
    else
      let m := { m with emittedTextByTurnId := appendText m.emittedTextByTurnId turnId delta }
      m.createEvent isDatetime
        ⟨rawEvent.id ++ Text.of ":text",rawEvent.occurredAt,.textDelta delta,false,rawEvent.turnId⟩

/-- `typeof item.call_id === "string" ? item.call_id : rawEvent.call_id` -/
def itemCallId (rawEvent : OmnigentRawEvent ν) (item : JsonRecord ν) : Option Text :=
  (Json.asString (Json.field item "call_id")).or rawEvent.call_id

def mapFunctionCall (m : OmnigentEventMapper) (rawEvent : OmnigentRawEvent ν) (turnId : Text) (item : JsonRecord ν) :
    MapOutcome ν :=
  match Text.truthy (itemCallId rawEvent item), Text.truthy (Json.asString (Json.field item "name")) with
  | some callId, some toolName =>
    if callId ∈ m.emittedToolCallIds then m.ignore
    else
      let m := { m with emittedToolCallIds := insert callId m.emittedToolCallIds }
      m.createEvent isDatetime ⟨rawEvent.id,rawEvent.occurredAt,
        .toolCall ⟨callId,m.sessionId,turnId,toolName,Json.field item "arguments",false⟩,false,rawEvent.turnId⟩
  | _, _ => m.ignore

def mapFunctionCallOutput (m : OmnigentEventMapper) (rawEvent : OmnigentRawEvent ν) (item : JsonRecord ν) :
    MapOutcome ν :=
  match Text.truthy (itemCallId rawEvent item) with
  | none => m.ignore
  | some callId =>
    if callId ∈ m.emittedToolResultIds then m.ignore
    else
      let m := { m with emittedToolResultIds := insert callId m.emittedToolResultIds }
      m.createEvent isDatetime ⟨rawEvent.id,rawEvent.occurredAt,
        .toolResult callId (Json.field item "output"),false,rawEvent.turnId⟩

def mapOutputItem (m : OmnigentEventMapper) (rawEvent : OmnigentRawEvent ν) : MapOutcome ν :=
  match rawEvent.item, Text.truthy rawEvent.turnId with
  | some item, some turnId =>
    let itemType := Json.asString (Json.field item "type")
    if itemType = some (Text.of "message") then m.mapMessageItem isDatetime rawEvent turnId item
    else if itemType = some (Text.of "function_call") then m.mapFunctionCall isDatetime rawEvent turnId item
    else if itemType = some (Text.of "function_call_output") then
      m.mapFunctionCallOutput isDatetime rawEvent item
    else m.ignore
  | _, _ => m.ignore

/-- The failure that `mapFailedEvent` reports. -/
def turnFailure (rawEvent : OmnigentRawEvent ν) : RuntimeFailure ν where
  actor := .omnigent
  category := (rawEvent.failure.bind (·.category)).getD .backendUnavailable
  message := ((rawEvent.failure.map (·.message)).or rawEvent.reason).getD
    (Text.of "Omnigent reported a terminal failure.")
  resetAt := rawEvent.failure.bind (·.resetAt)
  retryAfterSeconds := rawEvent.failure.bind (·.retryAfterSeconds)
  retryable := decide ((rawEvent.failure.bind (·.category)).getD .backendUnavailable ≠ .backendCapabilityMissing)
  safeDiagnostics := (rawEvent.failure.bind (·.statusCode)).map
    (fun statusCode => [(Text.of "statusCode",.number statusCode)])
  scope := .turn

/-- The guard of `mapFailedEvent` and `mapTerminalEvent`: one terminal event for a turn, under
its id or its alias. -/
def createTerminalEvent (m : OmnigentEventMapper) (rawEvent : OmnigentRawEvent ν) (payload : RuntimeEventPayload ν) :
    MapOutcome ν :=
  match Text.truthy rawEvent.turnId with
  | none => m.ignore
  | some turnId =>
    let reported := turnId ∈ m.emittedTerminalTurnIds ∨
      rawEvent.turnAliasId.any (fun aliasId => decide (aliasId ∈ m.emittedTerminalTurnIds))
    let m := { m with emittedTerminalTurnIds := insert turnId m.emittedTerminalTurnIds }
    if reported then m.ignore
    else m.createEvent isDatetime ⟨rawEvent.id,rawEvent.occurredAt,payload,true,rawEvent.turnId⟩

def mapFailedEvent (m : OmnigentEventMapper) (rawEvent : OmnigentRawEvent ν) : MapOutcome ν :=
  m.createTerminalEvent isDatetime rawEvent (.turnFailed (turnFailure rawEvent))

/-- `mapTerminalEvent(rawEvent, "runtime.turn.completed")` -/
def mapCompletedEvent (m : OmnigentEventMapper) (rawEvent : OmnigentRawEvent ν) : MapOutcome ν :=
  m.createTerminalEvent isDatetime rawEvent (.turnCompleted rawEvent.outputText)

/-- `mapTerminalEvent(rawEvent, "runtime.turn.cancelled")` -/
def mapCancelledEvent (m : OmnigentEventMapper) (rawEvent : OmnigentRawEvent ν) : MapOutcome ν :=
  m.createTerminalEvent isDatetime rawEvent (.turnCancelled rawEvent.reason)

/-- `mapTerminalEvent(rawEvent, "runtime.turn.timed_out")` -/
def mapTimedOutEvent (m : OmnigentEventMapper) (rawEvent : OmnigentRawEvent ν) : MapOutcome ν :=
  m.createTerminalEvent isDatetime rawEvent .turnTimedOut

def mapSessionCreated (m : OmnigentEventMapper) (rawEvent : OmnigentRawEvent ν) : MapOutcome ν :=
  if !m.legacySessionCreatedEvents || m.emittedSessionCreated then m.ignore
  else
    let m := { m with emittedSessionCreated := true }
    m.createEvent isDatetime ⟨rawEvent.id,rawEvent.occurredAt,
      .sessionCreated (sessionCreatedState rawEvent) (rawEvent.message.getD (Text.of "Omnigent session")),false,none⟩

def mapTurnStarted (m : OmnigentEventMapper) (rawEvent : OmnigentRawEvent ν) : MapOutcome ν :=
  match Text.truthy rawEvent.turnId with
  | none => m.ignore
  | some turnId =>
    if turnId ∈ m.emittedStartedTurnIds then m.ignore
    else
      let m := { m with emittedStartedTurnIds := insert turnId m.emittedStartedTurnIds }
      m.createEvent isDatetime ⟨rawEvent.id,rawEvent.occurredAt,
        .turnStarted (defaultTurnMessage rawEvent) .running,false,rawEvent.turnId⟩

def reasonIncludes (rawEvent : OmnigentRawEvent ν) (part : String) : Bool :=
  rawEvent.reason.any (fun reason => Text.includes reason (Text.of part))

/-- The `switch` of `map`. -/
def mapByType (m : OmnigentEventMapper) (rawEvent : OmnigentRawEvent ν) : MapOutcome ν :=
  match rawEvent.type with
  | .done => m.ignore
  | .stream type =>
    match type with
    | .sessionCreated => m.mapSessionCreated isDatetime rawEvent
    | .turnStarted | .responseCreated => m.mapTurnStarted isDatetime rawEvent
    | .responseOutputTextDelta => m.mapTextDelta isDatetime rawEvent
    | .responseOutputItemDone => m.mapOutputItem isDatetime rawEvent
    | .responseCompleted | .turnCompleted => m.mapCompletedEvent isDatetime rawEvent
    | .responseCancelled | .turnCancelled => m.mapCancelledEvent isDatetime rawEvent
    | .responseIncomplete =>
      if reasonIncludes rawEvent "interrupt" then m.mapCancelledEvent isDatetime rawEvent
      else if reasonIncludes rawEvent "timeout" then m.mapTimedOutEvent isDatetime rawEvent
      else m.mapFailedEvent isDatetime rawEvent
    | .responseFailed | .turnFailed => m.mapFailedEvent isDatetime rawEvent
    | .sessionStatus =>
      if rawEvent.status = some .failed then m.mapFailedEvent isDatetime rawEvent else m.ignore
    | _ => m.ignore

/-- The key that `map` remembers of an event, unless it is empty. -/
def itemKey (rawEvent : OmnigentRawEvent ν) : Option Text :=
  Text.truthy (some (rawEvent.itemId.getD rawEvent.id))

def map (m : OmnigentEventMapper) (rawEvent : OmnigentRawEvent ν) : MapOutcome ν :=
  if rawEvent.type = .stream .responseElicitationResolved ∨ rawEvent.type = .stream .sessionPermissionMode ∨
      rawEvent.type = .stream .sessionTitle then m.ignore
  else if (Text.truthy rawEvent.itemId).any (fun key => decide (key ∈ m.historicalItemIds)) then m.ignore
  else
    match itemKey rawEvent with
    | none => m.mapByType isDatetime rawEvent
    | some key =>
      if key ∈ m.seenItemIds then m.ignore
      else
        let m := { m with seenItemIds := insert key m.seenItemIds }
        m.mapByType isDatetime rawEvent

end OmnigentEventMapper
end Handlers
end OmniagentPlus.OmnigentTransport
