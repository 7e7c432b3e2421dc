import OmniagentPlus.OmnigentTransport.Types
import OmniagentPlus.Foundation.Dictionary
import Mathlib.Data.Finset.Insert
import Mathlib.Data.Finset.Lattice.Basic

/-! `OmnigentSseNormalizer` of `sse-stream.ts`: tagged stream events as raw events, with the
turns that responses belong to. -/
namespace OmniagentPlus.OmnigentTransport
open OmniagentPlus.Foundation OmniagentPlus.CoreContracts

def OmnigentEventStatus.tag : OmnigentEventStatus → String
  | idle => "idle"
  | launching => "launching"
  | running => "running"
  | waiting => "waiting"
  | failed => "failed"
  | queued => "queued"
  | inProgress => "in_progress"
  | completed => "completed"
  | incomplete => "incomplete"
  | cancelled => "cancelled"

def omnigentSessionEventStatuses : List OmnigentEventStatus := [.idle,.launching,.running,.waiting,.failed]

def omnigentResponseStatuses : List OmnigentEventStatus :=
  [.queued,.inProgress,.completed,.failed,.incomplete,.cancelled]

section Values
variable {ν : Type}

/-- The text of a value that is one and is not empty. -/
def stringValue (value : Option (Json ν)) : Option Text := Text.truthy (Json.asString value)

def booleanValue : Option (Json ν) → Option Bool
  | some (.bool b) => some b
  | _ => none

/-- `value === null ? null : stringValue(value)` -/
def nullableString : Option (Json ν) → Option (Option Text)
  | some .null => some none
  | value => (stringValue value).map some

/-- `a ?? b` -/
def nullish : Option (Json ν) → Option (Json ν) → Option (Json ν)
  | none, b | some .null, b => b
  | a, _ => a

/-- `record?.key` -/
def optionalField (record : Option (JsonRecord ν)) (key : String) : Option (Json ν) :=
  record.bind (fun r => Json.field r key)

def statusValue (value : Option (Json ν)) : Option OmnigentEventStatus :=
  (Json.asString value).bind (fun t =>
    (omnigentSessionEventStatuses ++ omnigentResponseStatuses).find? (fun status => decide (Text.of status.tag = t)))

def errorMessage : Option (Json ν) → Option Text
  | some (.string t) => some t
  | value => stringValue (optionalField (Json.asRecord value) "message")

def backgroundTaskFields : List Text := ["command","description","id","status","type"].map Text.of

/-- A known field stays where it is a text or `null`. -/
def keepsTaskField (field : Text × Json ν) : Bool :=
  match field.2 with
  | .string _ | .null => true
  | _ => decide (field.1 ∉ backgroundTaskFields)

def backgroundTasks : Option (Json ν) → Option (Option (List (JsonRecord ν)))
  | some .null => some none
  | some (.array tasks) =>
    some (some (tasks.filterMap (fun task => (Json.asRecord (some task)).map (List.filter keepsTaskField))))
  | _ => none

variable [JsNumber ν]

def numberValue : Option (Json ν) → Option ν
  | some (.number n) => if JsNumber.isFinite n then some n else none
  | _ => none

/-- The outer `none` is a thrown `RangeError`. -/
def epochToIso (value : Option (Json ν)) : Option (Option Text) :=
  match numberValue value with
  | none => some none
  | some epoch => (JsNumber.epochToIso epoch).map some

end Values

structure OmnigentSseNormalizer where
  sessionId : Text
  syntheticEventIdPrefix : Option Text
  currentResponseId : Option Text
  fallbackTurnId : Option Text
  identityFreeQuarantineTurnId : Option Text
  knownResponseIds : Finset Text
  pendingTerminalAmbiguous : Bool
  pendingTerminalTurnIds : List Text
  rejectedTurnIds : Finset Text
  responseAliases : Dictionary Text Text
  tentativeResponseAliases : Dictionary Text Text
  unboundTurnIds : List Text
  frameOrdinal : ℕ

/-- `new OmnigentSseNormalizer({ sessionId, syntheticEventIdPrefix })` -/
def newOmnigentSseNormalizer (sessionId : Text) (syntheticEventIdPrefix : Option Text) : OmnigentSseNormalizer where
  sessionId := sessionId
  syntheticEventIdPrefix := syntheticEventIdPrefix
  currentResponseId := none
  fallbackTurnId := none
  identityFreeQuarantineTurnId := none
  knownResponseIds := ∅
  pendingTerminalAmbiguous := false
  pendingTerminalTurnIds := []
  rejectedTurnIds := ∅
  responseAliases := .empty
  tentativeResponseAliases := .empty
  unboundTurnIds := []
  frameOrdinal := 0

/-- A parsed frame whose type is known. -/
structure OmnigentTaggedSseEvent (ν : Type) where
  type : OmnigentStreamEventType
  raw : JsonRecord ν

namespace OmnigentTaggedSseEvent
variable {ν : Type} (tagged : OmnigentTaggedSseEvent ν)

def response : Option (JsonRecord ν) := Json.asRecord (Json.field tagged.raw "response")

def data : Option (JsonRecord ν) := Json.asRecord (Json.field tagged.raw "data")

def item : Option (JsonRecord ν) := Json.asRecord (Json.field tagged.raw "item")

def isPassiveSessionMetadata : Bool :=
  decide (tagged.type = .sessionPermissionMode) || decide (tagged.type = .sessionTitle)

def isPreAllocationFailure : Bool :=
  decide (tagged.type = .responseFailed) && (stringValue (optionalField tagged.response "id")).isNone &&
    decide (Json.asString (optionalField tagged.response "status") = some (Text.of "failed"))

def isIdentityFreeEvent : Bool := tagged.isPassiveSessionMetadata || tagged.isPreAllocationFailure

/-- `tagged.type.startsWith("turn.")` -/
def isBareTurn : Bool := (Text.of "turn.").isPrefixOf (Text.of tagged.type.tag)

def nestedResponseId : Option Text :=
  if tagged.isPassiveSessionMetadata then none else stringValue (optionalField tagged.response "id")

def explicitResponseId : Option Text :=
  if tagged.isIdentityFreeEvent then none
  else ((stringValue (Json.field tagged.raw "response_id")).or
    (stringValue (optionalField tagged.data "response_id"))).or (stringValue (optionalField tagged.item "response_id"))

def officialTurnId : Option Text := tagged.nestedResponseId.or tagged.explicitResponseId

def status : Option OmnigentEventStatus :=
  (statusValue (Json.field tagged.raw "status")).or (statusValue (optionalField tagged.response "status"))

def terminal : Bool :=
  match tagged.type with
  | .responseCompleted | .responseFailed | .responseIncomplete | .responseCancelled => true
  | .turnCompleted | .turnFailed | .turnCancelled => tagged.explicitResponseId.isSome
  | .sessionStatus => decide (tagged.status = some .failed) ||
      (decide (tagged.status = some .idle) && tagged.explicitResponseId.isSome)
  | _ => false

variable [JsNumber ν]

/-- The first of some times that is there; `none` where one throws. -/
def firstTime (now : Text) : List (Option (Json ν)) → Option Text
  | [] => some now
  | value :: values =>
    match epochToIso value with
    | none => none
    | some (some time) => some time
    | some none => firstTime now values

def occurredAt (now : Text) : Option Text :=
  firstTime now [optionalField tagged.response "completed_at",optionalField tagged.response "created_at",
    optionalField tagged.data "requested_at"]

def failureMessage : Option Text :=
  (errorMessage (optionalField tagged.response "error")).or (errorMessage (Json.field tagged.raw "error"))

/-- What an event without an identity of its own leaves out. -/
def identified (value : Option Text) : Option Text := if tagged.isIdentityFreeEvent then none else value

def messageId : Option Text := tagged.identified (stringValue (Json.field tagged.raw "message_id"))

def itemId : Option Text :=
  tagged.identified (((((stringValue (optionalField tagged.item "id")).or
    (stringValue (Json.field tagged.raw "call_id"))).or (stringValue (Json.field tagged.raw "action_id"))).or
      (stringValue (Json.field tagged.raw "elicitation_id"))).or (stringValue (Json.field tagged.raw "file_id")))

end OmnigentTaggedSseEvent

namespace OmnigentSseNormalizer

def removeUnboundTurnId (s : OmnigentSseNormalizer) (turnId : Text) : OmnigentSseNormalizer :=
  { s with unboundTurnIds := s.unboundTurnIds.erase turnId }

def removePendingTerminalTurnId (s : OmnigentSseNormalizer) (turnId : Text) : OmnigentSseNormalizer :=
  { s with pendingTerminalTurnIds := s.pendingTerminalTurnIds.erase turnId }

def bindResponseAlias (s : OmnigentSseNormalizer) (responseId turnId : Text) : OmnigentSseNormalizer :=
  ({ s with
      responseAliases := s.responseAliases.set responseId turnId
      tentativeResponseAliases := s.tentativeResponseAliases.erase responseId }.removeUnboundTurnId
    turnId).removePendingTerminalTurnId turnId

/-- The turn that a new response takes, and whether that is certain. -/
def claimTurn (s : OmnigentSseNormalizer) (terminal : Bool) : OmnigentSseNormalizer × Option Text × Bool :=
  let pending := s.pendingTerminalTurnIds
  let unbound := s.unboundTurnIds
  if !terminal then ({ s with unboundTurnIds := unbound.tail },unbound.head?,unbound.head?.isSome)
  else if !pending.isEmpty && unbound.isEmpty then
    ({ s with
        pendingTerminalTurnIds := pending.tail
        pendingTerminalAmbiguous := !pending.tail.isEmpty && s.pendingTerminalAmbiguous },
      pending.head?,!s.pendingTerminalAmbiguous && decide (pending.length = 1))
  else if pending.isEmpty && !unbound.isEmpty then (s,unbound.head?,true)
  else (s,none,false)

/-- The turn of a response that has no alias yet. -/
def aliasNewResponse (s : OmnigentSseNormalizer) (responseId : Text) (terminal : Bool) :
    OmnigentSseNormalizer × Option Text × Bool :=
  match s.tentativeResponseAliases.get? responseId with
  | some turnId => (s.bindResponseAlias responseId turnId,some turnId,true)
  | none =>
    if responseId ∈ s.knownResponseIds then (s,none,false)
    else
      match s.claimTurn terminal with
      | (s,some turnId,true) => (s.bindResponseAlias responseId turnId,some turnId,true)
      | claimed => claimed

/-- The fallback turn has ended without a response: a later terminal may name it. -/
def awaitTerminal (s : OmnigentSseNormalizer) : Option Text → OmnigentSseNormalizer
  | none => s
  | some turnId =>
    if s.fallbackTurnId = some turnId then
      let pending := s.pendingTerminalTurnIds
      if turnId ∈ pending then s.removeUnboundTurnId turnId
      else { s.removeUnboundTurnId turnId with
        pendingTerminalAmbiguous := !pending.isEmpty || s.pendingTerminalAmbiguous
        pendingTerminalTurnIds := pending ++ [turnId] }
    else s

section Frame
variable {ν : Type} (s : OmnigentSseNormalizer) (tagged : OmnigentTaggedSseEvent ν)

def officialTurnRejected : Bool := tagged.officialTurnId.any (fun id => decide (id ∈ s.rejectedTurnIds))

/-- Events without an identity are in quarantine while the last turn named is a rejected one. -/
def observeTurn : OmnigentSseNormalizer :=
  match tagged.officialTurnId with
  | none => s
  | some id => { s with identityFreeQuarantineTurnId := if s.officialTurnRejected tagged then some id else none }

/-- The local `fallbackTurnId` of `normalize`. -/
def fallbackTurnIdFor : Option Text :=
  if tagged.terminal && tagged.officialTurnId.isNone && s.currentResponseId.isNone && s.unboundTurnIds.length != 1
  then none else s.fallbackTurnId

def turnIdFor : Option Text :=
  if tagged.isPassiveSessionMetadata then none
  else if tagged.isBareTurn then tagged.explicitResponseId
  else ((tagged.officialTurnId.or s.currentResponseId).or s.identityFreeQuarantineTurnId).or
    (s.fallbackTurnIdFor tagged)

def knownAlias : Option Text :=
  if tagged.isPassiveSessionMetadata then none
  else (tagged.officialTurnId.or (Text.truthy s.currentResponseId)).bind s.responseAliases.get?

/-- The turn behind the response of a frame, and whether that is certain. -/
def resolveTurnAlias : OmnigentSseNormalizer × Option Text × Bool :=
  match tagged.officialTurnId with
  | none => (s,s.knownAlias tagged,(s.knownAlias tagged).isSome)
  | some id =>
    if s.officialTurnRejected tagged then (s,s.knownAlias tagged,(s.knownAlias tagged).isSome)
    else
      let resolved := match s.knownAlias tagged with
        | some turnId => (s,some turnId,true)
        | none => s.aliasNewResponse id tagged.terminal
      ({ resolved.1 with knownResponseIds := insert id resolved.1.knownResponseIds },resolved.2)

/-- What a frame leaves behind once its event is made. -/
def settle (previousResponseId turnId turnAliasId : Option Text) (turnAliasConfirmed : Bool) : OmnigentSseNormalizer :=
  if tagged.terminal then
    let awaiting := if tagged.officialTurnId.isNone && previousResponseId.isNone then
      s.awaitTerminal turnId else s
    let settled := match turnAliasId, turnAliasConfirmed with
      | some id, true => (awaiting.removeUnboundTurnId id).removePendingTerminalTurnId id
      | _, _ => awaiting
    let ended := tagged.officialTurnId = previousResponseId ∨
      (tagged.officialTurnId = none ∧ turnId = previousResponseId)
    { settled with
      currentResponseId := if ended then none else settled.currentResponseId
      fallbackTurnId := if turnId = settled.fallbackTurnId ∨ turnAliasId = settled.fallbackTurnId then none
        else settled.fallbackTurnId }
  else
    match tagged.officialTurnId with
    | none => s
    | some id => if s.officialTurnRejected tagged then s else { s with currentResponseId := some id }

variable [JsNumber ν]

def sessionIdFor : Text :=
  ((stringValue (Json.field tagged.raw "conversation_id")).or
    (stringValue (Json.field tagged.raw "session_id"))).getD s.sessionId

def syntheticPrefix (sessionId : Text) : Text := s.syntheticEventIdPrefix.getD sessionId

/-- The id of the event of a frame. -/
def eventIdFor : Text :=
  let colon := Text.of ":"
  let tag := Text.of tagged.type.tag
  let sequence := (numberValue (Json.field tagged.raw "sequence_number")).map JsNumber.toText
  let ordinal := Text.of (toString s.frameOrdinal)
  let start := s.syntheticPrefix (s.sessionIdFor tagged)
  let streamEventOrdinal := sequence.getD (start ++ colon ++ ordinal)
  let messageIndex := ((numberValue (Json.field tagged.raw "index")).map JsNumber.toText).getD (Text.of "0")
  let syntheticEventId := start ++ colon ++ tag ++ colon ++ sequence.getD ordinal
  if tagged.isIdentityFreeEvent then syntheticEventId
  else ((tagged.itemId.or (tagged.messageId.map (fun messageId =>
      messageId ++ colon ++ messageIndex ++ colon ++ streamEventOrdinal))).or
    (tagged.nestedResponseId.map (fun id => id ++ colon ++ tag))).getD syntheticEventId

/-- The event of a frame that names its turn so. -/
def eventFor (turnId turnAliasId : Option Text) (turnAliasConfirmed : Bool) (occurredAt : Text) : OmnigentRawEvent ν :=
  let field := Json.field tagged.raw
  let text := fun key => stringValue (field key)
  let number := fun key => numberValue (field key)
  let record := fun key => Json.asRecord (field key)
  { id := s.eventIdFor tagged
    type := .stream tagged.type
    sessionId := s.sessionIdFor tagged
    occurredAt := occurredAt
    turnId := turnId
    background_task_count := number "background_task_count"
    background_tasks := backgroundTasks (field "background_tasks")
    blocked_on := nullableString (field "blocked_on")
    sequence_number := number "sequence_number"
    agent_id := nullableString (field "agent_id")
    conversation_id := text "conversation_id"
    child_session_id := text "child_session_id"
    cleared_pending_id := stringValue (optionalField tagged.data "cleared_pending_id")
    consumed_item_id := if tagged.type = .sessionInputConsumed then
      stringValue (optionalField tagged.data "item_id") else none
    parent_session_id := nullableString (field "parent_session_id")
    response_id := tagged.explicitResponseId
    itemId := tagged.itemId
    terminal := some tagged.terminal
    turnAliasConfirmed := some turnAliasConfirmed
    turnAliasId := turnAliasId
    status := tagged.status
    reason := ((text "reason").or (stringValue (optionalField
      (Json.asRecord (optionalField tagged.response "incomplete_details")) "reason"))).or tagged.failureMessage
    phase := text "phase"
    servers := record "servers"
    action_id := tagged.identified (text "action_id")
    action := text "action"
    args := record "args"
    call_id := tagged.identified ((text "call_id").or (stringValue (optionalField tagged.item "call_id")))
    message := tagged.failureMessage
    delta := text "delta"
    outputText := none
    failure := tagged.failureMessage.map (fun message => ⟨some .backendUnavailable,message,none,none,none⟩)
    model := text "model"
    reasoning_effort := text "reasoning_effort"
    permission_mode := text "permission_mode"
    title := text "title"
    total_cost_usd := number "total_cost_usd"
    usage_by_model := record "usage_by_model"
    error := nullish (field "error") (optionalField tagged.response "error")
    attempt := number "attempt"
    delay_seconds := number "delay_seconds"
    tool_name := text "tool_name"
    source := text "source"
    elicitation_id := tagged.identified (text "elicitation_id")
    params := record "params"
    item := if tagged.isIdentityFreeEvent then none else tagged.item
    message_id := tagged.messageId
    index := number "index"
    final := booleanValue (field "final") }

/-- `normalize` of a resolved elicitation, which names no turn. -/
def normalizeElicitation (now : Text) : OmnigentRawEvent ν :=
  { id := s.syntheticPrefix s.sessionId ++ Text.of ":" ++ Text.of tagged.type.tag ++ Text.of ":" ++
      Text.of (toString s.frameOrdinal)
    type := .stream tagged.type
    sessionId := s.sessionId
    occurredAt := now
    action := stringValue (Json.field tagged.raw "action")
    elicitation_id := stringValue (Json.field tagged.raw "elicitation_id") }

/-- `normalize(tagged)` at the time `now`; no event where it throws. -/
def normalize (now : Text) : OmnigentSseNormalizer × Option (OmnigentRawEvent ν) :=
  let s := { s with frameOrdinal := s.frameOrdinal + 1 }
  if tagged.type = .responseElicitationResolved then (s,some (s.normalizeElicitation tagged now))
  else
    let previousResponseId := s.currentResponseId
    let s := s.observeTurn tagged
    let turnId := s.turnIdFor tagged
    let resolved := s.resolveTurnAlias tagged
    match tagged.occurredAt now with
    | none => (resolved.1,none)
    | some occurredAt =>
      (settle resolved.1 tagged previousResponseId turnId resolved.2.1 resolved.2.2,
        some (eventFor resolved.1 tagged turnId resolved.2.1 resolved.2.2 occurredAt))

end Frame
end OmnigentSseNormalizer
end OmniagentPlus.OmnigentTransport
