import OmniagentPlus.CoreContracts.StateLedger
import OmniagentPlus.Foundation.Json

/-! `events.ts` and `errors.ts`: runtime events as the transport makes them, checked by the
event schema. `isDatetime` is the check that the schema library makes of a date-time. -/
namespace OmniagentPlus.CoreContracts
open OmniagentPlus.Foundation

inductive RuntimeFailureCategory
  | validation
  | transport
  | protocol
  | auth
  | billing
  | rateLimit
  | concurrencyLimit
  | policyDenied
  | approvalRequired
  | approvalDenied
  | timeout
  | cancelled
  | harnessUnavailable
  | backendUnavailable
  | backendVersionMismatch
  | backendCapabilityMissing
  | sandboxDenied
  | malformedResponse
  | stateConflict
  | internal
  deriving DecidableEq, Repr

inductive RuntimeFailureActor
  | caller
  | provider
  | harness
  | omnigent
  | network
  | policy
  | unknown
  deriving DecidableEq, Repr

inductive RuntimeFailureScope
  | request
  | turn
  | session
  | identityProfile
  | providerFamily
  | worktree
  | system
  deriving DecidableEq, Repr

structure RuntimeFailure (ν : Type) where
  category : RuntimeFailureCategory
  retryable : Bool
  actor : RuntimeFailureActor
  scope : RuntimeFailureScope
  message : Text
  retryAfterSeconds : Option ν
  resetAt : Option Text
  safeDiagnostics : Option (JsonRecord ν)

structure RuntimeToolCall (ν : Type) where
  toolCallId : Text
  sessionId : Text
  turnId : Text
  toolName : Text
  argumentsRedacted : Option (Json ν)
  approvalRequired : Bool

inductive RuntimeEventType
  | sessionCreated
  | turnStarted
  | textDelta
  | toolCall
  | toolResult
  | approvalRequest
  | limit
  | turnCompleted
  | turnFailed
  | turnCancelled
  | turnTimedOut
  | sessionClosed
  | heartbeat
  deriving DecidableEq, Repr

inductive SessionClosedReason
  | logicalClose
  | deleted
  | failed
  deriving DecidableEq, Repr

inductive RuntimeEventPayload (ν : Type)
  | sessionCreated (state : AgentSessionState) (title : Text)
  | turnStarted (message : Text) (state : TurnState)
  | textDelta (delta : Text)
  | toolCall (toolCall : RuntimeToolCall ν)
  | toolResult (toolCallId : Text) (outputRedacted : Option (Json ν))
  | turnCompleted (outputSummary : Option Text)
  | turnFailed (failure : RuntimeFailure ν)
  | turnCancelled (reason : Option Text)
  | turnTimedOut
  | sessionClosed (reason : SessionClosedReason)

inductive RedactionStatus
  | metadataOnly
  | contentAllowed
  | contentRedacted
  deriving DecidableEq, Repr

/-- A runtime event; its `type` is the one of its payload. -/
structure RuntimeEventEnvelope (ν : Type) where
  eventId : Text
  sequence : ℕ
  sessionId : Text
  turnId : Option Text
  occurredAt : Text
  payload : RuntimeEventPayload ν
  redaction : RedactionStatus
  terminal : Bool

namespace RuntimeEventPayload
variable {ν : Type}

def type : RuntimeEventPayload ν → RuntimeEventType
  | sessionCreated _ _ => .sessionCreated
  | turnStarted _ _ => .turnStarted
  | textDelta _ => .textDelta
  | toolCall _ => .toolCall
  | toolResult _ _ => .toolResult
  | turnCompleted _ => .turnCompleted
  | turnFailed _ => .turnFailed
  | turnCancelled _ => .turnCancelled
  | turnTimedOut => .turnTimedOut
  | sessionClosed _ => .sessionClosed

end RuntimeEventPayload

/-- `z.string().min(1).optional()` -/
def optionalNonempty (t : Option Text) : Bool := t.all (fun s => !s.isEmpty)

section Schema
variable {ν : Type} [JsNumber ν] (isDatetime : Text → Bool)

/-- `runtimeFailureSchema` -/
def RuntimeFailure.parses (f : RuntimeFailure ν) : Bool :=
  !f.message.isEmpty &&
    f.retryAfterSeconds.all (fun n => JsNumber.isInteger n && JsNumber.isNonnegative n) &&
    f.resetAt.all isDatetime

/-- `runtimeToolCallSchema` -/
def RuntimeToolCall.parses (c : RuntimeToolCall ν) : Bool :=
  !c.toolCallId.isEmpty && !c.sessionId.isEmpty && !c.turnId.isEmpty && !c.toolName.isEmpty

/-- The payload's part of `runtimeEventSchema`. -/
def RuntimeEventPayload.parses : RuntimeEventPayload ν → Bool
  | .sessionCreated _ title => !title.isEmpty
  | .turnStarted _ _ => true
  | .textDelta _ => true
  | .toolCall c => c.parses
  | .toolResult toolCallId _ => !toolCallId.isEmpty
  | .turnCompleted outputSummary => optionalNonempty outputSummary
  | .turnFailed failure => failure.parses isDatetime
  | .turnCancelled reason => optionalNonempty reason
  | .turnTimedOut => true
  | .sessionClosed _ => true

/-- `runtimeEventSchema` -/
def RuntimeEventEnvelope.parses (e : RuntimeEventEnvelope ν) : Bool :=
  !e.eventId.isEmpty && decide (0 < e.sequence) && !e.sessionId.isEmpty && optionalNonempty e.turnId &&
    isDatetime e.occurredAt && e.payload.parses isDatetime

/-- `none` for a thrown schema error. -/
def createRuntimeEvent (event : RuntimeEventEnvelope ν) : Option (RuntimeEventEnvelope ν) :=
  if event.parses isDatetime then some event else none

theorem createRuntimeEvent_eq_some {e c : RuntimeEventEnvelope ν} :
    createRuntimeEvent isDatetime e = some c ↔ e.parses isDatetime = true ∧ e = c := by
  simp [createRuntimeEvent]

end Schema
end OmniagentPlus.CoreContracts
