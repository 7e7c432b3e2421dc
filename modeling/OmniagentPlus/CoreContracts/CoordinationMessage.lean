import OmniagentPlus.CoreContracts.CoordinationContract
import OmniagentPlus.CoreContracts.Redaction

/-! Coordination messages of `coordination-contract.ts`, and their check. -/
namespace OmniagentPlus.CoreContracts
open OmniagentPlus.Foundation

def Granularity.tag : Granularity → String
  | repo => "repo"
  | pathSet => "path-set"
  | symbol => "symbol"

inductive CoordinationMessageType
  | requestYield
  | announceIntent
  | handoff
  | done
  deriving DecidableEq, Repr

def CoordinationMessageType.tag : CoordinationMessageType → String
  | requestYield => "request-yield"
  | announceIntent => "announce-intent"
  | handoff => "handoff"
  | done => "done"

/-- The text of a date-time: one that `toContractTimestamp` writes for a number of seconds, or another
form that the schema takes for a date-time, at some millisecond. -/
inductive Datetime
  | contract (seconds : ℤ)
  | other (instant : ℤ)
  deriving DecidableEq, Repr

/-- `Date.parse` -/
def Datetime.instant : Datetime → ℤ
  | contract seconds => 1000 * seconds
  | other instant => instant

/-- The seconds that `toContractTimestamp` writes. -/
def Datetime.seconds (d : Datetime) : ℤ := toContractTimestamp d.instant

/-- `z.string().datetime({ offset: true })`: years have four digits. -/
def Datetime.accepted : Datetime → Bool
  | contract seconds => isoTimestampSeconds seconds
  | other _ => true

/-- A message as it is stored, before it is checked. -/
structure MessageFields (ν : Type) where
  message_id : Text
  type : CoordinationMessageType
  sender : Text
  created_at : Datetime
  scope : LeaseScope
  target_holder : Option Text
  lease_id : Option Text
  handoff_packet_id : Option Text
  body : Option (JsonRecord ν)

section Values
variable {ν : Type}

/-- A property that is there. -/
def presentField (key : String) (value : Option (JsValue ν)) : List (Text × JsValue ν) :=
  value.toList.map fun v => (Text.of key,v)

def LeaseScope.toValue (scope : LeaseScope) : JsValue ν :=
  .object [(Text.of "granularity",.string (Text.of scope.granularity.tag)),
    (Text.of "selector",.array (scope.selector.map fun t => some (.string t)) [])] []

/-- The message as the scan sees it. The text of a date-time, digits and `T`, `Z`, `+`, `-`, `.`, `:`, is
one in which the scan finds nothing. -/
def MessageFields.toValue (m : MessageFields ν) : JsValue ν :=
  .object ([(Text.of "schema",.string (Text.of "consiliency.coordination_message.v1")),
    (Text.of "message_id",.string m.message_id),(Text.of "type",.string (Text.of m.type.tag)),
    (Text.of "sender",.string m.sender),(Text.of "scope",m.scope.toValue)] ++
      presentField "target_holder" (m.target_holder.map .string) ++ presentField "lease_id" (m.lease_id.map .string) ++
        presentField "handoff_packet_id" (m.handoff_packet_id.map .string) ++
          presentField "body" (m.body.map fun body => .ofJson (.object body))) []

def nonempty (value : Option Text) : Bool := value.all fun t => !t.isEmpty

variable [JsNumber ν] (isDatetime : Text → Bool)

/-- `coordinationMessageSchema`, `metadataSchemaCheck` included. -/
def MessageFields.allowed (m : MessageFields ν) : Bool :=
  !m.message_id.isEmpty && !m.sender.isEmpty && m.created_at.accepted && m.scope.allowed && nonempty m.target_holder &&
    nonempty m.lease_id && nonempty m.handoff_packet_id && metadataSafe isDatetime m.toValue

end Values
end OmniagentPlus.CoreContracts
