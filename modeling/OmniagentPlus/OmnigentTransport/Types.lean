import OmniagentPlus.CoreContracts.RuntimeEvents

/-! `types.ts` of the Omnigent transport: raw stream events and persisted conversation items. -/
namespace OmniagentPlus.OmnigentTransport
open OmniagentPlus.Foundation OmniagentPlus.CoreContracts

inductive OmnigentStreamEventType
  | browserActionRequest
  | sessionCreated
  | sessionStatus
  | sessionInputConsumed
  | sessionInterrupted
  | sessionChildSessionUpdated
  | sessionUsage
  | sessionModel
  | sessionModelOptions
  | sessionReasoningEffort
  | sessionCollaborationMode
  | sessionPermissionMode
  | sessionTitle
  | sessionAgentChanged
  | sessionTodos
  | sessionTerminalPending
  | sessionSandboxStatus
  | sessionSkills
  | sessionSuperseded
  | sessionPresence
  | sessionResourceCreated
  | sessionResourceDeleted
  | sessionChangedFilesInvalidated
  | sessionTerminalActivity
  | sessionHeartbeat
  | sessionMcpStartup
  | responseCreated
  | responseQueued
  | responseInProgress
  | responseOutputTextDelta
  | responseOutputItemDone
  | responseOutputFileDone
  | responseReasoningStarted
  | responseReasoningTextDelta
  | responseReasoningSummaryTextDelta
  | responseRetry
  | responseError
  | responseCompactionInProgress
  | responseCompactionCompleted
  | responseCompactionFailed
  | responseClientTaskCancel
  | responseHeartbeat
  | responseElicitationRequest
  | responseElicitationResolved
  | responsePolicyDenied
  | responseFunctionCallOutputDelta
  | responseCompleted
  | responseFailed
  | responseIncomplete
  | responseCancelled
  | turnStarted
  | turnCompleted
  | turnFailed
  | turnCancelled
  deriving DecidableEq, Repr

def omnigentStreamEventTypes : List OmnigentStreamEventType :=
  [.browserActionRequest,.sessionCreated,.sessionStatus,.sessionInputConsumed,.sessionInterrupted,
   .sessionChildSessionUpdated,.sessionUsage,.sessionModel,.sessionModelOptions,
   .sessionReasoningEffort,.sessionCollaborationMode,.sessionPermissionMode,.sessionTitle,
   .sessionAgentChanged,.sessionTodos,.sessionTerminalPending,.sessionSandboxStatus,.sessionSkills,
   .sessionSuperseded,.sessionPresence,.sessionResourceCreated,.sessionResourceDeleted,
   .sessionChangedFilesInvalidated,.sessionTerminalActivity,.sessionHeartbeat,.sessionMcpStartup,
   .responseCreated,.responseQueued,.responseInProgress,.responseOutputTextDelta,
   .responseOutputItemDone,.responseOutputFileDone,.responseReasoningStarted,
   .responseReasoningTextDelta,.responseReasoningSummaryTextDelta,.responseRetry,.responseError,
   .responseCompactionInProgress,.responseCompactionCompleted,.responseCompactionFailed,
   .responseClientTaskCancel,.responseHeartbeat,.responseElicitationRequest,
   .responseElicitationResolved,.responsePolicyDenied,.responseFunctionCallOutputDelta,
   .responseCompleted,.responseFailed,.responseIncomplete,.responseCancelled,.turnStarted,
   .turnCompleted,.turnFailed,.turnCancelled]

/-- The tag of an event type on the wire. -/
def OmnigentStreamEventType.tag : OmnigentStreamEventType → String
  | browserActionRequest => "browser.action_request"
  | sessionCreated => "session.created"
  | sessionStatus => "session.status"
  | sessionInputConsumed => "session.input.consumed"
  | sessionInterrupted => "session.interrupted"
  | sessionChildSessionUpdated => "session.child_session.updated"
  | sessionUsage => "session.usage"
  | sessionModel => "session.model"
  | sessionModelOptions => "session.model_options"
  | sessionReasoningEffort => "session.reasoning_effort"
  | sessionCollaborationMode => "session.collaboration_mode"
  | sessionPermissionMode => "session.permission_mode"
  | sessionTitle => "session.title"
  | sessionAgentChanged => "session.agent_changed"
  | sessionTodos => "session.todos"
  | sessionTerminalPending => "session.terminal_pending"
  | sessionSandboxStatus => "session.sandbox_status"
  | sessionSkills => "session.skills"
  | sessionSuperseded => "session.superseded"
  | sessionPresence => "session.presence"
  | sessionResourceCreated => "session.resource.created"
  | sessionResourceDeleted => "session.resource.deleted"
  | sessionChangedFilesInvalidated => "session.changed_files.invalidated"
  | sessionTerminalActivity => "session.terminal.activity"
  | sessionHeartbeat => "session.heartbeat"
  | sessionMcpStartup => "session.mcp_startup"
  | responseCreated => "response.created"
  | responseQueued => "response.queued"
  | responseInProgress => "response.in_progress"
  | responseOutputTextDelta => "response.output_text.delta"
  | responseOutputItemDone => "response.output_item.done"
  | responseOutputFileDone => "response.output_file.done"
  | responseReasoningStarted => "response.reasoning.started"
  | responseReasoningTextDelta => "response.reasoning_text.delta"
  | responseReasoningSummaryTextDelta => "response.reasoning_summary_text.delta"
  | responseRetry => "response.retry"
  | responseError => "response.error"
  | responseCompactionInProgress => "response.compaction.in_progress"
  | responseCompactionCompleted => "response.compaction.completed"
  | responseCompactionFailed => "response.compaction.failed"
  | responseClientTaskCancel => "response.client_task.cancel"
  | responseHeartbeat => "response.heartbeat"
  | responseElicitationRequest => "response.elicitation_request"
  | responseElicitationResolved => "response.elicitation_resolved"
  | responsePolicyDenied => "response.policy_denied"
  | responseFunctionCallOutputDelta => "response.function_call_output.delta"
  | responseCompleted => "response.completed"
  | responseFailed => "response.failed"
  | responseIncomplete => "response.incomplete"
  | responseCancelled => "response.cancelled"
  | turnStarted => "turn.started"
  | turnCompleted => "turn.completed"
  | turnFailed => "turn.failed"
  | turnCancelled => "turn.cancelled"

inductive OmnigentRawEventType
  | stream (type : OmnigentStreamEventType)
  | done
  deriving DecidableEq, Repr

/-- `OmnigentSessionEventStatus | OmnigentResponseStatus` -/
inductive OmnigentEventStatus
  | idle
  | launching
  | running
  | waiting
  | failed
  | queued
  | inProgress
  | completed
  | incomplete
  | cancelled
  deriving DecidableEq, Repr

structure OmnigentEventFailure (ν : Type) where
  category : Option RuntimeFailureCategory
  message : Text
  statusCode : Option ν
  retryAfterSeconds : Option ν
  resetAt : Option Text

/-- The fields that the stream normalizer sets; a field that may also be `null` has two options. -/
structure OmnigentRawEvent (ν : Type) where
  id : Text
  type : OmnigentRawEventType
  sessionId : Text
  occurredAt : Text
  turnId : Option Text := none
  background_task_count : Option ν := none
  background_tasks : Option (Option (List (JsonRecord ν))) := none
  blocked_on : Option (Option Text) := none
  sequence_number : Option ν := none
  agent_id : Option (Option Text) := none
  conversation_id : Option Text := none
  child_session_id : Option Text := none
  cleared_pending_id : Option Text := none
  consumed_item_id : Option Text := none
  parent_session_id : Option (Option Text) := none
  response_id : Option Text := none
  itemId : Option Text := none
  terminal : Option Bool := none
  turnAliasConfirmed : Option Bool := none
  turnAliasId : Option Text := none
  status : Option OmnigentEventStatus := none
  reason : Option Text := none
  phase : Option Text := none
  servers : Option (JsonRecord ν) := none
  action_id : Option Text := none
  action : Option Text := none
  args : Option (JsonRecord ν) := none
  call_id : Option Text := none
  message : Option Text := none
  delta : Option Text := none
  outputText : Option Text := none
  failure : Option (OmnigentEventFailure ν) := none
  model : Option Text := none
  reasoning_effort : Option Text := none
  permission_mode : Option Text := none
  title : Option Text := none
  total_cost_usd : Option ν := none
  usage_by_model : Option (JsonRecord ν) := none
  error : Option (Json ν) := none
  attempt : Option ν := none
  delay_seconds : Option ν := none
  tool_name : Option Text := none
  source : Option Text := none
  elicitation_id : Option Text := none
  params : Option (JsonRecord ν) := none
  item : Option (JsonRecord ν) := none
  message_id : Option Text := none
  index : Option ν := none
  final : Option Bool := none

inductive OmnigentConversationItemType
  | compaction
  | error
  | functionCall
  | functionCallOutput
  | message
  | nativeTool
  | reasoning
  | resourceEvent
  | routingDecision
  | slashCommand
  | terminalCommand
  deriving DecidableEq, Repr

/-- A persisted item; `data` has its other properties. -/
structure OmnigentConversationItem (ν : Type) where
  created_at : ν
  id : Text
  response_id : Text
  type : OmnigentConversationItemType
  data : JsonRecord ν

end OmniagentPlus.OmnigentTransport
