import OmniagentPlus.StateLedger.CoordinationChannel
import OmniagentPlus.WorktreeLeasing.CoordinationTables

/-! The inbox functions of `coordination_server_time.sql`, each one transaction on the messages. `jsonb` is
what the type of that name makes of a message's body, and `scan` the walk over the message that
`coordination_send_message` takes for metadata that is not to be kept. -/
namespace OmniagentPlus.WorktreeLeasing
open OmniagentPlus.Foundation OmniagentPlus.CoreContracts OmniagentPlus.StateLedger
variable {ν : Type}

/-- A row of `coordination_inbox_messages`; the columns that nothing reads are left out. -/
structure InboxRow (ν : Type) where
  message_id : Text
  message_type : CoordinationMessageType
  scope : LeaseScope
  payload : MessageFields ν
  created_at : ℤ

mutual

/-- A value whose texts `jsonb` takes. -/
def jsonbHolds : Json ν → Bool
  | .string t => jsonbText t
  | .array items => jsonbItems items
  | .object fields => jsonbFields fields
  | _ => true

def jsonbItems : List (Json ν) → Bool
  | [] => true
  | item :: items => jsonbHolds item && jsonbItems items

def jsonbFields : List (Text × Json ν) → Bool
  | [] => true
  | (key,value) :: fields => jsonbText key && jsonbHolds value && jsonbFields fields

end

/-- A message whose texts `jsonb` takes. -/
def storableMessage (message : CoordinationMessageInput ν) : Bool :=
  ([message.sender] ++ message.scope.selector ++ message.targetHolder.toList ++ message.leaseId.toList ++
    message.handoffPacketId.toList ++ message.now.toList).all jsonbText && (message.body.map jsonFields).all jsonbFields

/-- The checks of `coordination_send_message` before its walk; a type and a granularity are one of theirs. -/
def messageShape (message : CoordinationMessageInput ν) : Bool :=
  !message.sender.isEmpty && message.scope.allowed && nonempty message.targetHolder && nonempty message.leaseId &&
    nonempty message.handoffPacketId

/-- An answer of `coordination_send_message`: a receipt, or that there is no room. -/
inductive InboxAnswer
  | sent (receipt : CoordinationMessageReceipt)
  | capacity
  deriving DecidableEq, Repr

namespace InboxRow

/-- The column and the payload's own time. -/
def putCreated (created_at : ℤ) (m : InboxRow ν) : InboxRow ν :=
  { m with created_at, payload := { m.payload with created_at := .contract created_at } }

/-- `update ... set created_at = now_at where created_at > now_at` -/
def clamp (now_at : ℤ) (m : InboxRow ν) : InboxRow ν := if now_at < m.created_at then m.putCreated now_at else m

/-- Not `created_at <= now_at - interval '7 days'`. -/
def isRecent (now_at : ℤ) (m : InboxRow ν) : Bool := decide (now_at - inboxTtlSeconds < m.created_at)

/-- `(created_at, message_id)` -/
def tuple (m : InboxRow ν) : CoordinationTuple := ⟨m.created_at,m.message_id⟩

end InboxRow

/-- The order of such pairs, of the ids under `collate "C"`. -/
def compareRowTuples (a b : CoordinationTuple) : Ordering :=
  (compare a.timestamp b.timestamp).then (compareIds a.id b.id)

/-- The row that a message is kept in. -/
def rowOf (jsonb : JsonRecord ν → JsonRecord ν) (m : MessageFields ν) : InboxRow ν where
  message_id := m.message_id
  message_type := m.type
  scope := m.scope
  payload := { m with body := m.body.map jsonb }
  created_at := m.created_at.seconds

/-- The messages that are not deleted at `now_at`, none of them later. -/
def retainedRows (rows : List (InboxRow ν)) (now_at : ℤ) : List (InboxRow ν) :=
  (rows.map (InboxRow.clamp now_at)).filter (InboxRow.isRecent now_at)

/-- `clock` is `clock_timestamp()`, `uuid` what `gen_random_uuid()` draws. The function returns an answer for
want of room, so that what it deleted stays deleted. -/
def coordinationSendMessage (jsonb : JsonRecord ν → JsonRecord ν) (scan : CoordinationMessageInput ν → Bool)
    (rows : List (InboxRow ν)) (message : CoordinationMessageInput ν) (clock : ℤ) (uuid : Text) :
    Except SqlError (InboxAnswer × List (InboxRow ν)) := do
  if !storableMessage message then throw .untranslatable
  if !(messageShape message && scan message) then throw .invalidParameter
  let now_at := toContractTimestamp clock
  let rows := retainedRows rows now_at
  if inboxCapacity ≤ rows.length then return (.capacity,rows)
  let payload : MessageFields ν := {
    message_id := Text.of "msg:" ++ uuid
    type := message.type
    sender := message.sender
    created_at := .contract now_at
    scope := message.scope
    target_holder := message.targetHolder
    lease_id := message.leaseId
    handoff_packet_id := message.handoffPacketId
    body := message.body.map jsonFields }
  return (.sent ⟨payload.message_id,payload.created_at⟩,rows ++ [rowOf jsonb payload])

/-- `clock` is `statement_timestamp()`, which is not cut to seconds. -/
def coordinationListMessages (rows : List (InboxRow ν)) (query : CoordinationMessageQuery) (limit : ℤ)
    (cursor : Option CoordinationTuple) (clock : ℤ) : Except SqlError (List (MessageFields ν)) := do
  if !(query.scope.elim [] (·.selector) ++ (cursor.map (·.id)).toList).all jsonbText then throw .untranslatable
  let limit ← coordinationPageLimit limit cursor
  let matching := rows.filter fun m =>
    decide (clock - 1000 * inboxTtlSeconds < 1000 * m.created_at) && query.type.all (m.message_type == ·) &&
      query.scope.all (coordinationScopeOverlaps m.scope) && cursor.all fun c => compareRowTuples m.tuple c == .gt
  let sorted := matching.mergeSort fun a b => compareRowTuples a.tuple b.tuple != .gt
  return (sorted.take limit).map fun m => (m.putCreated m.created_at).payload

namespace SupabaseCoordinationChannel
variable [JsNumber ν] (isDatetime : Text → Bool)

/-- `SupabaseCoordinationChannel.send`; an error of the function is one of its checks. A receipt is checked on the
way back. -/
def send (jsonb : JsonRecord ν → JsonRecord ν) (scan : CoordinationMessageInput ν → Bool) (rows : List (InboxRow ν))
    (message : JsValue ν) (clock : ℤ) (uuid : Text) :
    Except CoordinationError CoordinationMessageReceipt × List (InboxRow ν) :=
  if metadataSafe isDatetime message then
    match parseInput (projectInert 65 message) with
    | none => (.error .validation,rows)
    | some input =>
      match coordinationSendMessage jsonb scan rows input clock uuid with
      | .error _ => (.error .validation,rows)
      | .ok (.capacity,after) => (.error .capacity,after)
      | .ok (.sent receipt,after) => (if receipt.createdAt.accepted then .ok receipt else .error .malformed,after)
  else (.error .metadata,rows)

/-- `SupabaseCoordinationChannel.list`; the messages are checked on the way back. -/
def list (rows : List (InboxRow ν)) (query : CoordinationMessageQuery) (clock : ℤ) :
    Except CoordinationError (List (MessageFields ν)) := do
  let (limit,cursor) ← (validateCoordinationPage query.page).elim (.error .validation) .ok
  match coordinationListMessages rows query limit cursor clock with
  | .error _ => throw .validation
  | .ok messages => if messages.all fun m => m.allowed isDatetime then return messages else throw .malformed

end SupabaseCoordinationChannel
end OmniagentPlus.WorktreeLeasing
