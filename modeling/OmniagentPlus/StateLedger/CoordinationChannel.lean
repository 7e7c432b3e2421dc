import OmniagentPlus.CoreContracts.CoordinationMessage
import OmniagentPlus.StateLedger.CoordinationPage

/-! `LocalCoordinationChannel` of `coordination-channel.ts` over the file of its inbox. A call holds
the coordination lock, so calls follow one another. -/
namespace OmniagentPlus.StateLedger
open OmniagentPlus.Foundation OmniagentPlus.CoreContracts

/-- What a checked input says. -/
structure CoordinationMessageInput (ν : Type) where
  type : CoordinationMessageType
  sender : Text
  scope : LeaseScope
  targetHolder : Option Text
  leaseId : Option Text
  handoffPacketId : Option Text
  body : Option (List (Text × JsValue ν))
  now : Option Text

structure CoordinationMessageQuery where
  scope : Option LeaseScope
  type : Option CoordinationMessageType
  page : CoordinationPage
  deriving DecidableEq, Repr

/-- A message that the schema accepts. -/
structure CoordinationMessage (ν : Type) [JsNumber ν] (isDatetime : Text → Bool) extends MessageFields ν where
  allowed : toMessageFields.allowed isDatetime = true

structure LocalCoordinationInboxState (ν : Type) where
  updatedAt : Datetime
  messages : List (MessageFields ν)

inductive CoordinationError
  | metadata
  | validation
  | malformed
  | invalidDate
  | capacity
  deriving DecidableEq, Repr

def inboxTtlSeconds : ℤ := 7 * 24 * 60 * 60

def inboxCapacity : ℕ := 10000

section Inputs
variable {ν : Type}

def granularityOf (tag : Text) : Option Granularity :=
  [Granularity.repo,.pathSet,.symbol].find? fun granularity => decide (Text.of granularity.tag = tag)

def messageTypeOf (tag : Text) : Option CoordinationMessageType :=
  [CoordinationMessageType.requestYield,.announceIntent,.handoff,.done].find? fun type => decide (Text.of type.tag = tag)

/-- `consiliencyLeaseScopeSchema` -/
def parseScope (value : JsValue ν) : Option LeaseScope := do
  let granularity ← (value.property "granularity").asString.bind granularityOf
  let selector ← match value.property "selector" with
    | .array items _ => items.mapM fun item => item.bind JsValue.asString
    | _ => none
  let scope : LeaseScope := ⟨granularity,selector⟩
  if scope.allowed then some scope else none

/-- `z.string().min(1).optional()`; the outer `none` is a refusal. -/
def parseOptional (value : JsValue ν) : Option (Option Text) :=
  match value with
  | .undefined => some none
  | .string t => if t.isEmpty then none else some (some t)
  | _ => none

/-- `coordinationMessageInputSchema` -/
def parseInput (value : JsValue ν) : Option (CoordinationMessageInput ν) := do
  let type ← (value.property "type").asString.bind messageTypeOf
  let sender ← (value.property "sender").asString.filter fun t => !t.isEmpty
  let scope ← parseScope (value.property "scope")
  let targetHolder ← parseOptional (value.property "targetHolder")
  let leaseId ← parseOptional (value.property "leaseId")
  let handoffPacketId ← parseOptional (value.property "handoffPacketId")
  let body ← match value.property "body" with
    | .undefined => some none
    | .object fields _ => some (some fields)
    | _ => none
  let now ← match value.property "now" with
    | .undefined => some none
    | .string t => some (some t)
    | _ => none
  return ⟨type,sender,scope,targetHolder,leaseId,handoffPacketId,body,now⟩

/-- The input as a value again. -/
def CoordinationMessageInput.toValue (input : CoordinationMessageInput ν) : JsValue ν :=
  .object ([(Text.of "type",.string (Text.of input.type.tag)),(Text.of "sender",.string input.sender),
    (Text.of "scope",input.scope.toValue)] ++ presentField "targetHolder" (input.targetHolder.map .string) ++
      presentField "leaseId" (input.leaseId.map .string) ++ presentField "handoffPacketId" (input.handoffPacketId.map .string) ++
        presentField "body" (input.body.map fun body => .object body []) ++ presentField "now" (input.now.map .string)) []

mutual

/-- `JSON.parse(JSON.stringify(value))` of a value in which the scans find nothing; `none` where it is
left out of its record. -/
def jsonCopy : JsValue ν → Option (Json ν)
  | .undefined | .foreign _ => none
  | .null => some .null
  | .bool b => some (.bool b)
  | .number n => some (.number n)
  | .string t => some (.string t)
  | .array items _ => some (.array (jsonItems items))
  | .object fields _ => some (.object (jsonFields fields))

def jsonItems : List (Option (JsValue ν)) → List (Json ν)
  | [] => []
  | none :: items => .null :: jsonItems items
  | some item :: items => (jsonCopy item).getD .null :: jsonItems items

def jsonFields : List (Text × JsValue ν) → JsonRecord ν
  | [] => []
  | (key,value) :: fields => ((jsonCopy value).map fun v => (key,v)).toList ++ jsonFields fields

end

variable [JsNumber ν] (isDatetime : Text → Bool)

/-- `buildMessage` at a contract timestamp; `uuid` is what `randomUUID` draws. -/
def buildMessage (input : CoordinationMessageInput ν) (now : ℤ) (uuid : Text) :
    Except CoordinationError (CoordinationMessage ν isDatetime) :=
  if metadataInert input.toValue && metadataSafe isDatetime input.toValue then
    let fields : MessageFields ν := {
      message_id := Text.of "msg:" ++ uuid
      type := input.type
      sender := input.sender
      created_at := .contract now
      scope := input.scope
      target_holder := input.targetHolder
      lease_id := input.leaseId
      handoff_packet_id := input.handoffPacketId
      body := input.body.map jsonFields }
    if h : fields.allowed isDatetime = true then .ok ⟨fields,h⟩ else .error .validation
  else .error .metadata

/-- `readState`: no file is an empty inbox; `inboxSchema` checks what there is. -/
def readInbox (file : Option (LocalCoordinationInboxState ν)) (now : ℤ) :
    Except CoordinationError (LocalCoordinationInboxState ν) :=
  match file with
  | none => .ok ⟨.contract now,[]⟩
  | some state =>
    if state.updatedAt.accepted && state.messages.all fun m => m.allowed isDatetime then .ok state else .error .malformed

/-- A creation time after the clock is the clock's. -/
def clampCreation (now : ℤ) (m : MessageFields ν) : MessageFields ν :=
  { m with created_at := .contract (if 1000 * now < m.created_at.instant then now else m.created_at.seconds) }

def unexpired (now : ℤ) (m : MessageFields ν) : Bool := decide (1000 * (now - inboxTtlSeconds) < m.created_at.instant)

structure CoordinationMessageReceipt where
  messageId : Text
  createdAt : Datetime
  deriving DecidableEq, Repr

/-- What `send` does under the lock, with the file that it leaves. `clock` is `none` for a `Date`
that is none. -/
def sendLocked (file : Option (LocalCoordinationInboxState ν)) (message : CoordinationMessageInput ν) (clock : Option ℤ)
    (uuid : Text) : Except CoordinationError CoordinationMessageReceipt × Option (LocalCoordinationInboxState ν) :=
  if !metadataInert message.toValue then (.error .metadata,file)
  else
    match clock with
    | none => (.error .invalidDate,file)
    | some instant =>
      let now := toContractTimestamp instant
      match readInbox isDatetime file now with
      | .error e => (.error e,file)
      | .ok state =>
        match buildMessage isDatetime message now uuid with
        | .error e => (.error e,file)
        | .ok built =>
          let normalized := state.messages.any fun m => decide ((clampCreation now m).created_at ≠ m.created_at)
          let messages := (state.messages.map (clampCreation now)).filter (unexpired now)
          if inboxCapacity ≤ messages.length then
            (.error .capacity,if normalized then some ⟨.contract now,messages⟩ else file)
          else (.ok ⟨built.message_id,built.created_at⟩,some ⟨.contract now,messages ++ [built.toMessageFields]⟩)

/-- `projectMetadataExport(value, { inertOnly: true })`: a copy of what is enumerable. -/
def projectInert : ℕ → JsValue ν → JsValue ν
  | 0, _ | _ + 1, .foreign _ => .string (Text.of "[redacted]")
  | depth + 1, .array items _ => .array (items.map fun item => item.map (projectInert depth)) []
  | depth + 1, .object fields _ => .object (fields.map fun field => (field.1,projectInert depth field.2)) []
  | _ + 1, value => value

def send (file : Option (LocalCoordinationInboxState ν)) (message : JsValue ν) (clock : Option ℤ) (uuid : Text) :
    Except CoordinationError CoordinationMessageReceipt × Option (LocalCoordinationInboxState ν) :=
  if metadataInert message && metadataSafe isDatetime message then
    match parseInput (projectInert 65 message) with
    | none => (.error .validation,file)
    | some input => sendLocked isDatetime file input clock uuid
  else (.error .metadata,file)

end Inputs

def selectorsIntersect (left right : List Text) : Bool := left.any fun selector => right.contains selector

/-- `pathOverlaps` of `coordination-channel.ts` -/
def inboxPathOverlaps (left right : Text) : Bool :=
  left == right || (right ++ [slash]).isPrefixOf left || (left ++ [slash]).isPrefixOf right

def scopeMatches (message : LeaseScope) : Option LeaseScope → Bool
  | none => true
  | some scope =>
    if message.granularity = .repo ∨ scope.granularity = .repo then true
    else decide (message.granularity = scope.granularity) &&
      if message.granularity = .pathSet then
        message.selector.any fun leftSelector => scope.selector.any fun rightSelector =>
          inboxPathOverlaps leftSelector rightSelector
      else selectorsIntersect message.selector scope.selector

section List
variable {ν : Type}

def messageTuple (m : MessageFields ν) : CoordinationTuple := ⟨m.created_at.seconds,m.message_id⟩

/-- The message with its creation time as `toContractTimestamp` writes it. -/
def listed (m : MessageFields ν) : MessageFields ν := { m with created_at := .contract m.created_at.seconds }

/-- What a query asks for, on whichever page. -/
def matchesQuery (query : CoordinationMessageQuery) (now : ℤ) (m : MessageFields ν) : Bool :=
  unexpired now m && query.type.all (· == m.type) && scopeMatches m.scope query.scope

/-- `list` -/
def list [JsNumber ν] (isDatetime : Text → Bool) (file : Option (LocalCoordinationInboxState ν))
    (query : CoordinationMessageQuery) (clock : Option ℤ) : Except CoordinationError (List (MessageFields ν)) := do
  let (limit,cursor) ← (validateCoordinationPage query.page).elim (.error .validation) .ok
  let instant ← clock.elim (.error .invalidDate) .ok
  let now := toContractTimestamp instant
  let state ← readInbox isDatetime file now
  let sorted := ((state.messages.map listed).filter (matchesQuery query now)).mergeSort fun left right =>
    compareCoordinationTuple (messageTuple left) (messageTuple right) != .gt
  return (sorted.filter fun m => cursor.all fun c => compareCoordinationTuple (messageTuple m) c == .gt).take limit

end List
end OmniagentPlus.StateLedger
