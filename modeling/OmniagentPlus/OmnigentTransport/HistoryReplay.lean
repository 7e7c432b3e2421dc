import OmniagentPlus.OmnigentTransport.HistoryMapper
import OmniagentPlus.Foundation.JsonParse
import OmniagentPlus.Foundation.Transition
import Mathlib.Data.List.Sort

/-! `readHistory` in `http-provider.ts`: the persisted events under the numbers that the provider
gives them, less the text that a reader with the cursor has, cut to a page. -/
namespace OmniagentPlus.OmnigentTransport
open OmniagentPlus.Foundation OmniagentPlus.CoreContracts

/-- `.` of a regular expression does not match these. -/
def isLineTerminator (u : UInt16) : Bool := u == 0x0A || u == 0x0D || u == 0x2028 || u == 0x2029

/-- What stands before a marker and a final number. -/
def beforeNumber (marker text : Text) : Option Text :=
  let body := text.rdropWhile JsonParse.isDigit
  if body.length < text.length ∧ marker <:+ body then some (body.take (body.length - marker.length)) else none

def textMarker : Text := Text.of ":text:"

def continuationMarker : Text := Text.of ":continuation:"

def decimal (n : ℕ) : Text := Text.of (toString n)

section Events
variable {ν : Type}

/-- The message in the id of a text event: `^(.*):text:\d+(?::continuation:\d+)?$`. -/
def runtimeTextMessageId (eventId : Text) : Option Text :=
  (beforeNumber textMarker ((beforeNumber continuationMarker eventId).getD eventId)).filter
    (fun messageId => !messageId.any isLineTerminator)

def typeName : RuntimeEventType → String
  | .sessionCreated => "runtime.session.created"
  | .turnStarted => "runtime.turn.started"
  | .textDelta => "runtime.text.delta"
  | .toolCall => "runtime.tool.call"
  | .toolResult => "runtime.tool.result"
  | .approvalRequest => "runtime.approval.request"
  | .limit => "runtime.limit"
  | .turnCompleted => "runtime.turn.completed"
  | .turnFailed => "runtime.turn.failed"
  | .turnCancelled => "runtime.turn.cancelled"
  | .turnTimedOut => "runtime.turn.timed_out"
  | .sessionClosed => "runtime.session.closed"
  | .heartbeat => "runtime.heartbeat"

/-- `eventId.replace(/:text:(\d+)$/, ":$1")` -/
def textSequenceId (eventId : Text) : Text :=
  match beforeNumber textMarker eventId with
  | some messageId => messageId ++ Text.of ":" ++ eventId.rtakeWhile JsonParse.isDigit
  | none => eventId

def runtimeEventSequenceKey (e : RuntimeEventEnvelope ν) : Text :=
  let turnId := e.turnId.getD (Text.of "undefined")
  match e.payload with
  | .turnStarted _ _ => Text.of "turn:" ++ turnId ++ Text.of ":started"
  | .textDelta _ => Text.of "text:" ++ textSequenceId e.eventId
  | .toolCall toolCall => Text.of "tool-call:" ++ toolCall.toolCallId
  | .toolResult toolCallId _ => Text.of "tool-result:" ++ toolCallId
  | .sessionCreated _ _ => Text.of (typeName .sessionCreated ++ ":") ++ e.eventId
  | .sessionClosed _ => Text.of (typeName .sessionClosed ++ ":") ++ e.eventId
  | payload => Text.of "turn:" ++ turnId ++ Text.of (":" ++ typeName payload.type)

/-- The turn and the text of a text event that has a turn. -/
def turnText (e : RuntimeEventEnvelope ν) : Option (Text × Text) :=
  match e.payload, Text.truthy e.turnId with
  | .textDelta delta, some turnId => some (turnId,delta)
  | _, _ => none

end Events

structure DeliveredTextGroup where
  messageId : Option Text
  occurredAt : Text
  text : Text

/-- The texts of one message; an event is known by its place in the list. -/
structure RuntimeTextGroup extends DeliveredTextGroup where
  events : List (ℕ × Text)

structure DeliveredTextEvent where
  delta : Text
  messageId : Option Text
  occurredAt : Text
  sequence : ℕ

def identityFree : Text := Text.of "__identity_free__"

section Groups
variable {ν : Type}

def addToGroup (groups : Dictionary Text RuntimeTextGroup) (messageId : Option Text) (occurredAt delta : Text)
    (place : ℕ) : Dictionary Text RuntimeTextGroup :=
  let groupKey := messageId.getD identityFree
  let existing := groups.get? groupKey
  groups.set groupKey {
    events := (existing.map (·.events)).getD [] ++ [(place,delta)]
    messageId := messageId
    occurredAt := (existing.map (·.occurredAt)).getD occurredAt
    text := (existing.map (·.text)).getD [] ++ delta }

/-- An event of the list, with its place in it. -/
def addTextEvent (sourceMessageId : Option Text) (groupsByTurnId : Dictionary Text (Dictionary Text RuntimeTextGroup))
    (event : RuntimeEventEnvelope ν × ℕ) : Dictionary Text (Dictionary Text RuntimeTextGroup) :=
  match turnText event.1 with
  | none => groupsByTurnId
  | some (turnId,delta) => groupsByTurnId.set turnId (addToGroup ((groupsByTurnId.get? turnId).getD .empty)
      (sourceMessageId.or (runtimeTextMessageId event.1.eventId)) event.1.occurredAt delta event.2)

def groupTextEvents (events : List (RuntimeEventEnvelope ν)) (sourceMessageId : Option Text) :
    Dictionary Text (Dictionary Text RuntimeTextGroup) :=
  events.zipIdx.foldl (addTextEvent sourceMessageId) .empty

def textGroupsCompatible (current : RuntimeTextGroup) (delivered : DeliveredTextGroup) : Bool :=
  delivered.text.isPrefixOf current.text || current.text.isPrefixOf delivered.text

def sameMessageId (current : RuntimeTextGroup) (delivered : DeliveredTextGroup) : Bool :=
  current.messageId.isSome && current.messageId == delivered.messageId

/-- What a round of matching has left. -/
structure TextMatching where
  matched : List (RuntimeTextGroup × DeliveredTextGroup)
  remainingCurrent : List RuntimeTextGroup
  remainingDelivered : List DeliveredTextGroup

/-- Each current group in turn takes the first delivered one that it goes with. -/
def matchGroups (predicate : RuntimeTextGroup → DeliveredTextGroup → Bool) :
    List RuntimeTextGroup → List DeliveredTextGroup → TextMatching
  | [], remaining => ⟨[],[],remaining⟩
  | current :: rest, remaining =>
    match remaining.find? (predicate current) with
    | some delivered =>
      let next := matchGroups predicate rest (remaining.eraseP (predicate current))
      { next with matched := (current,delivered) :: next.matched }
    | none =>
      let next := matchGroups predicate rest remaining
      { next with remainingCurrent := current :: next.remainingCurrent }

def TextMatching.round (predicate : RuntimeTextGroup → DeliveredTextGroup → Bool) (m : TextMatching) : TextMatching :=
  let next := matchGroups predicate m.remainingCurrent m.remainingDelivered
  { next with matched := m.matched ++ next.matched }

def matchDeliveredTextGroups (currentGroups : List RuntimeTextGroup) (deliveredGroups : List DeliveredTextGroup) :
    List (RuntimeTextGroup × DeliveredTextGroup) :=
  ((((TextMatching.mk [] currentGroups deliveredGroups).round sameMessageId).round
    fun current delivered => current.occurredAt == delivered.occurredAt && textGroupsCompatible current delivered).round
    fun current delivered => current.text == delivered.text).round textGroupsCompatible |>.matched

/-- What is left of the texts of a group once the delivered text is taken off its front. -/
def cutGroup : Text → List (ℕ × Text) → Dictionary ℕ Text → Dictionary ℕ Text
  | _, [], remainingByEvent => remainingByEvent
  | remaining, (place,delta) :: rest, remainingByEvent =>
    if delta.isPrefixOf remaining then
      cutGroup (remaining.drop delta.length) rest (remainingByEvent.set place [])
    else if remaining.isPrefixOf delta then
      cutGroup [] rest (remainingByEvent.set place (delta.drop remaining.length))
    else cutGroup remaining rest remainingByEvent

end Groups

/-- What the provider knows of the events it has handed out: their numbers, and the texts. -/
structure EventReplay where
  eventSequences : Dictionary Text (Dictionary Text ℕ)
  nextEventSequences : Dictionary Text ℕ
  deliveredTextEventsByTurnIds : Dictionary Text (Dictionary Text DeliveredTextEvent)

namespace EventReplay
variable {ν : Type}

def init : EventReplay := ⟨.empty,.empty,.empty⟩

/-- One event under its number: the one its key has, else the next. -/
def resequenceEvent (sequences : Dictionary Text ℕ) (nextSequence : ℕ) (e : RuntimeEventEnvelope ν) :
    RuntimeEventEnvelope ν × Dictionary Text ℕ × ℕ :=
  match sequences.get? (runtimeEventSequenceKey e) with
  | some sequence => ({ e with sequence := sequence },sequences,nextSequence)
  | none => ({ e with sequence := nextSequence },sequences.set (runtimeEventSequenceKey e) nextSequence,nextSequence + 1)

def resequenceList (sequences : Dictionary Text ℕ) (nextSequence : ℕ) :
    List (RuntimeEventEnvelope ν) → List (RuntimeEventEnvelope ν) × Dictionary Text ℕ × ℕ
  | [] => ([],sequences,nextSequence)
  | e :: es =>
    let first := resequenceEvent sequences nextSequence e
    let rest := resequenceList first.2.1 first.2.2 es
    (first.1 :: rest.1,rest.2)

def resequenceRuntimeEvents (s : EventReplay) (sessionId : Text) (events : List (RuntimeEventEnvelope ν))
    (sequenceFloor : ℕ) : List (RuntimeEventEnvelope ν) × EventReplay :=
  let resequenced := resequenceList ((s.eventSequences.get? sessionId).getD .empty)
    (max ((s.nextEventSequences.get? sessionId).getD 1) (sequenceFloor + 1)) events
  (resequenced.1,{ s with
    eventSequences := s.eventSequences.set sessionId resequenced.2.1
    nextEventSequences := s.nextEventSequences.set sessionId resequenced.2.2 })

def addDelivered (groups : Dictionary Text DeliveredTextGroup) (delivered : DeliveredTextEvent) :
    Dictionary Text DeliveredTextGroup :=
  let key := delivered.messageId.getD identityFree
  let group := groups.get? key
  groups.set key {
    messageId := delivered.messageId
    occurredAt := (group.map (·.occurredAt)).getD delivered.occurredAt
    text := (group.map (·.text)).getD [] ++ delivered.delta }

/-- The texts of a turn that a reader with the cursor has, by message. -/
def deliveredGroups (s : EventReplay) (turnKey : Text) (cursor : ℕ) : Dictionary Text DeliveredTextGroup :=
  let delivered := ((s.deliveredTextEventsByTurnIds.get? turnKey).getD .empty).values
  ((delivered.filter (fun d => decide (d.sequence ≤ cursor))).insertionSort
    (fun l r => l.sequence ≤ r.sequence)).foldl addDelivered .empty

def deliveredTextForCursor (s : EventReplay) (turnKey : Text) (cursor : ℕ) : List DeliveredTextGroup :=
  (s.deliveredGroups turnKey cursor).values

def turnKey (sessionId turnId : Text) : Text := sessionId ++ Text.of ":" ++ turnId

/-- What is left of each event of which text was delivered, by the event's place. -/
def remainingByEvent (s : EventReplay) (sessionId : Text) (events : List (RuntimeEventEnvelope ν)) (afterSequence : ℕ)
    (sourceMessageId : Option Text) : Dictionary ℕ Text :=
  (groupTextEvents events sourceMessageId).entries.foldl (fun remaining turn =>
    (matchDeliveredTextGroups turn.2.values
      (s.deliveredTextForCursor (turnKey sessionId turn.1) afterSequence)).foldl
      (fun remaining pair => cutGroup pair.2.text pair.1.events remaining) remaining) .empty

/-- The rest of a text of which some was delivered. -/
def continuation (e : RuntimeEventEnvelope ν) (length : ℕ) (delta : Text) : RuntimeEventEnvelope ν :=
  { e with
    eventId := e.eventId ++ continuationMarker ++ decimal (length - delta.length)
    payload := .textDelta delta }

def trimDeliveredHistoryText (s : EventReplay) (sessionId : Text) (events : List (RuntimeEventEnvelope ν))
    (afterSequence : ℕ) (sourceMessageId : Option Text) : List (RuntimeEventEnvelope ν) :=
  let remaining := s.remainingByEvent sessionId events afterSequence sourceMessageId
  events.zipIdx.flatMap fun p =>
    match turnText p.1 with
    | none => [p.1]
    | some (_,delta) =>
      match remaining.get? p.2 with
      | none => [p.1]
      | some rest => if rest.isEmpty then [] else [continuation p.1 delta.length rest]

def recordText (sessionId : Text) (sourceMessageId : Option Text) (s : EventReplay) (e : RuntimeEventEnvelope ν) :
    EventReplay :=
  match turnText e with
  | none => s
  | some (turnId,delta) =>
    let eventKey := sessionId ++ Text.of ":" ++ runtimeEventSequenceKey e
    let delivered := (s.deliveredTextEventsByTurnIds.get? (turnKey sessionId turnId)).getD .empty
    if (delivered.get? eventKey).isSome then s
    else
      let delivered := delivered.set eventKey
        ⟨delta,sourceMessageId.or (runtimeTextMessageId e.eventId),e.occurredAt,e.sequence⟩
      { s with deliveredTextEventsByTurnIds :=
          s.deliveredTextEventsByTurnIds.set (turnKey sessionId turnId) delivered }

def recordDeliveredText (s : EventReplay) (sessionId : Text) (events : List (RuntimeEventEnvelope ν))
    (sourceMessageId : Option Text) : EventReplay :=
  events.foldl (recordText sessionId sourceMessageId) s

/-- The part of `readHistory` after the history is mapped. -/
def replayHistory (s : EventReplay) (sessionId : Text) (mapped : List (RuntimeEventEnvelope ν))
    (afterSequence limit : Option ℕ) : SessionHistory ν × EventReplay :=
  let replayEvents := match afterSequence with
    | none => mapped
    | some after => s.trimDeliveredHistoryText sessionId mapped after none
  let resequenced := s.resequenceRuntimeEvents sessionId replayEvents 0
  let mappedEvents := resequenced.1.filter (fun e => decide (afterSequence.getD 0 < e.sequence))
  let events := match limit with
    | none => mappedEvents
    | some limit => mappedEvents.take limit
  (⟨events,((events.getLast?.map (·.sequence)).or afterSequence).getD 0,sessionId⟩,
    resequenced.2.recordDeliveredText sessionId events none)

/-- `none` where the history cannot be mapped. -/
def readHistory [JsNumber ν] (isDatetime : Text → Bool) (s : EventReplay) (sessionId : Text)
    (items : List (OmnigentConversationItem ν)) (afterSequence limit : Option ℕ) :
    Option (SessionHistory ν × EventReplay) :=
  (mapOmnigentConversationHistory isDatetime sessionId items none).map
    (fun mapped => s.replayHistory sessionId mapped.runtimeEvents afterSequence limit)

end EventReplay
end OmniagentPlus.OmnigentTransport
