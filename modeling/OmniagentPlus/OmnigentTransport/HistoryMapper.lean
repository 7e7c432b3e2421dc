import OmniagentPlus.OmnigentTransport.EventMapper

/-! `history-mapper.ts`: persisted conversation items as runtime events, with what seeds the
mapper of the live stream. `none` stands for a thrown error. -/
namespace OmniagentPlus.OmnigentTransport
open OmniagentPlus.Foundation OmniagentPlus.CoreContracts

structure SessionHistory (ν : Type) where
  events : List (RuntimeEventEnvelope ν)
  nextCursor : ℕ
  sessionId : Text

structure MappedOmnigentHistory (ν : Type) where
  history : SessionHistory ν
  historicalMessagesByTurnId : Dictionary Text (List OmnigentHistoricalMessage)
  historicalTextByMessageId : Dictionary Text Text
  historicalTextByTurnId : Dictionary Text Text
  historicalToolCallIds : Finset Text
  historicalToolResultIds : Finset Text
  runtimeEvents : List (RuntimeEventEnvelope ν)
  seenItemIds : Finset Text
  startedTurnIds : Finset Text
  terminalTurnIds : Finset Text

/-- What the loop over the items has so far. -/
structure HistoryMapping (ν : Type) where
  runtimeEvents : List (RuntimeEventEnvelope ν) := []
  seenItemIds : Finset Text := ∅
  startedTurnIds : Finset Text := ∅
  terminalTurnIds : Finset Text := ∅
  historicalTextByTurnId : Dictionary Text Text := .empty
  historicalTextByMessageId : Dictionary Text Text := .empty
  historicalMessagesByTurnId : Dictionary Text (List OmnigentHistoricalMessage) := .empty
  historicalToolCallIds : Finset Text := ∅
  historicalToolResultIds : Finset Text := ∅
  sequence : ℕ := 1

section Items
variable {ν : Type} [JsNumber ν]

def itemTimestamp (item : OmnigentConversationItem ν) : Option Text := JsNumber.epochToIso item.created_at

omit [JsNumber ν] in
def contentText (item : OmnigentConversationItem ν) : List Text :=
  match Json.field item.data "content" with
  | some (.array blocks) =>
    if Json.isTrue (Json.field item.data "is_meta") then []
    else blocks.filterMap (fun block =>
      match block with
      | .object fields => Json.asString (Json.field fields "text")
      | _ => none)
  | _ => []

omit [JsNumber ν] in
def itemRole (item : OmnigentConversationItem ν) : Option Text := Json.asString (Json.field item.data "role")

variable (isDatetime : Text → Bool) (sessionId : Text)

namespace HistoryMapping

def append (h : HistoryMapping ν) (event : EventDraft ν) : Option (HistoryMapping ν) :=
  (createRuntimeEvent isDatetime
    ⟨event.eventId,h.sequence,sessionId,event.turnId,event.occurredAt,event.payload,.metadataOnly,event.terminal⟩).map
    (fun created => { h with runtimeEvents := h.runtimeEvents ++ [created], sequence := h.sequence + 1 })

def turnMessage (item : OmnigentConversationItem ν) (text : List Text) : Text :=
  let named := Text.of "Omnigent turn " ++ item.response_id
  let joined := [(10 : UInt16)].intercalate text
  if item.type = .message ∧ itemRole item = some (Text.of "user") ∧ joined ≠ [] then joined else named

def ensureStarted (h : HistoryMapping ν) (item : OmnigentConversationItem ν) (text : List Text) :
    Option (HistoryMapping ν) :=
  if item.response_id ∈ h.startedTurnIds then some h
  else do
    let h := { h with startedTurnIds := insert item.response_id h.startedTurnIds }
    let occurredAt ← itemTimestamp item
    h.append isDatetime sessionId ⟨item.id ++ Text.of ":turn-started",occurredAt,
      .turnStarted (turnMessage item text) .running,false,some item.response_id⟩

/-- The texts of an assistant message, one event each. -/
def appendTexts (h : HistoryMapping ν) (item : OmnigentConversationItem ν) (occurredAt : Text)
    (text : List Text) : Option (HistoryMapping ν) :=
  text.zipIdx.foldlM (fun h p => h.append isDatetime sessionId
    ⟨item.id ++ Text.of (":text:" ++ toString p.2),occurredAt,.textDelta p.1,false,some item.response_id⟩) h

/-- What the maps of historical text take from an assistant message. -/
def recordMessage (h : HistoryMapping ν) (item : OmnigentConversationItem ν) (text : List Text) : HistoryMapping ν :=
  { h with
    historicalTextByTurnId := OmnigentEventMapper.appendText h.historicalTextByTurnId item.response_id text.flatten
    historicalTextByMessageId := h.historicalTextByMessageId.set item.id text.flatten
    historicalMessagesByTurnId := if text.isEmpty then h.historicalMessagesByTurnId
      else h.historicalMessagesByTurnId.set item.response_id
        ((h.historicalMessagesByTurnId.get? item.response_id).getD [] ++ [⟨item.id,text.flatten⟩]) }

def mapMessage (h : HistoryMapping ν) (item : OmnigentConversationItem ν) (occurredAt : Text) (text : List Text) :
    Option (HistoryMapping ν) :=
  let role := itemRole item
  if Json.isTrue (Json.field item.data "is_meta") ||
      (role != some (Text.of "user") && role != some (Text.of "assistant")) then some h
  else do
    let h ← h.ensureStarted isDatetime sessionId item text
    if role = some (Text.of "user") then some h
    else do
      let h ← (h.recordMessage item text).appendTexts isDatetime sessionId item occurredAt text
      if Json.isTrue (Json.field item.data "interrupted") && decide (item.response_id ∉ h.terminalTurnIds) then
        let h := { h with terminalTurnIds := insert item.response_id h.terminalTurnIds }
        h.append isDatetime sessionId ⟨item.id ++ Text.of ":cancelled",occurredAt,
          .turnCancelled (some (Text.of "interrupted")),true,some item.response_id⟩
      else some h

def mapFunctionCall (h : HistoryMapping ν) (item : OmnigentConversationItem ν) (occurredAt : Text) (text : List Text) :
    Option (HistoryMapping ν) :=
  match Text.truthy (Json.asString (Json.field item.data "call_id")), Text.truthy (Json.asString (Json.field item.data "name")) with
  | some callId, some toolName => do
    let h ← h.ensureStarted isDatetime sessionId item text
    let h := { h with historicalToolCallIds := insert callId h.historicalToolCallIds }
    h.append isDatetime sessionId ⟨item.id,occurredAt,.toolCall ⟨callId,sessionId,item.response_id,toolName,
      Json.field item.data "arguments",false⟩,false,some item.response_id⟩
  | _, _ => some h

def mapFunctionCallOutput (h : HistoryMapping ν) (item : OmnigentConversationItem ν) (occurredAt : Text)
    (text : List Text) : Option (HistoryMapping ν) :=
  match Text.truthy (Json.asString (Json.field item.data "call_id")) with
  | some callId => do
    let h ← h.ensureStarted isDatetime sessionId item text
    let h := { h with historicalToolResultIds := insert callId h.historicalToolResultIds }
    h.append isDatetime sessionId ⟨item.id,occurredAt,
      .toolResult callId (Json.field item.data "output"),false,some item.response_id⟩
  | none => some h

/-- The failure that a persisted error reports. -/
def errorFailure (item : OmnigentConversationItem ν) : RuntimeFailure ν where
  actor := .omnigent
  category := .backendUnavailable
  message := (Json.asString (Json.field item.data "message")).getD (Text.of "Omnigent persisted a terminal error.")
  retryable := true
  scope := .turn
  retryAfterSeconds := none
  resetAt := none
  safeDiagnostics := none

def mapError (h : HistoryMapping ν) (item : OmnigentConversationItem ν) (occurredAt : Text) (text : List Text) :
    Option (HistoryMapping ν) :=
  if item.response_id ∈ h.terminalTurnIds then some h
  else do
    let h ← h.ensureStarted isDatetime sessionId item text
    let h := { h with terminalTurnIds := insert item.response_id h.terminalTurnIds }
    h.append isDatetime sessionId
      ⟨item.id,occurredAt,.turnFailed (errorFailure item),true,some item.response_id⟩

/-- The body of the loop. -/
def mapItem (h : HistoryMapping ν) (item : OmnigentConversationItem ν) : Option (HistoryMapping ν) := do
  let h := { h with seenItemIds := insert item.id h.seenItemIds }
  let occurredAt ← itemTimestamp item
  let text := contentText item
  match item.type with
  | .message => h.mapMessage isDatetime sessionId item occurredAt text
  | .functionCall => h.mapFunctionCall isDatetime sessionId item occurredAt text
  | .functionCallOutput => h.mapFunctionCallOutput isDatetime sessionId item occurredAt text
  | .error => h.mapError isDatetime sessionId item occurredAt text
  | _ => some h

omit [JsNumber ν] in
/-- What the mapping returns after the loop. -/
def toMapped (afterSequence : Option ℕ) (h : HistoryMapping ν) : MappedOmnigentHistory ν :=
  let filteredEvents := match afterSequence with
    | none => h.runtimeEvents
    | some after => h.runtimeEvents.filter (fun event => decide (after < event.sequence))
  { history := {
      events := filteredEvents
      nextCursor := ((filteredEvents.getLast?.map (·.sequence)).or afterSequence).getD 0
      sessionId := sessionId }
    historicalMessagesByTurnId := h.historicalMessagesByTurnId
    historicalTextByMessageId := h.historicalTextByMessageId
    historicalTextByTurnId := h.historicalTextByTurnId
    historicalToolCallIds := h.historicalToolCallIds
    historicalToolResultIds := h.historicalToolResultIds
    runtimeEvents := h.runtimeEvents
    seenItemIds := h.seenItemIds
    startedTurnIds := h.startedTurnIds
    terminalTurnIds := h.terminalTurnIds }

end HistoryMapping

def mapOmnigentConversationHistory (items : List (OmnigentConversationItem ν)) (afterSequence : Option ℕ) :
    Option (MappedOmnigentHistory ν) :=
  (items.foldlM (HistoryMapping.mapItem isDatetime sessionId) {}).map (HistoryMapping.toMapped sessionId afterSequence)

/-- The options with which a session's stream makes its mapper after the history. -/
def MappedOmnigentHistory.mapperOptions (mapped : MappedOmnigentHistory ν) (startingSequence : ℕ) :
    OmnigentEventMapperOptions where
  historicalMessagesByTurnId := mapped.historicalMessagesByTurnId
  historicalTextByMessageId := mapped.historicalTextByMessageId
  historicalToolCallIds := mapped.historicalToolCallIds
  historicalToolResultIds := mapped.historicalToolResultIds
  seenItemIds := mapped.seenItemIds
  startingSequence := startingSequence
  startedTurnIds := mapped.startedTurnIds
  terminalTurnIds := mapped.terminalTurnIds

end Items
end OmniagentPlus.OmnigentTransport
