import OmniagentPlus.CoreContracts.RuntimeEvents

/-! `state-machines.ts`: the transitions of sessions and turns. -/
namespace OmniagentPlus.CoreContracts
open OmniagentPlus.Foundation
variable {ν : Type}

def AgentSessionState.name : AgentSessionState → String
  | .created => "created"
  | .starting => "starting"
  | .idle => "idle"
  | .turnActive => "turn_active"
  | .blockedOnApproval => "blocked_on_approval"
  | .cancelling => "cancelling"
  | .closed => "closed"
  | .failed => "failed"

def TurnState.name : TurnState → String
  | .accepted => "accepted"
  | .queued => "queued"
  | .running => "running"
  | .blockedOnToolApproval => "blocked_on_tool_approval"
  | .cancelling => "cancelling"
  | .cancelled => "cancelled"
  | .timedOut => "timed_out"
  | .completed => "completed"
  | .failed => "failed"

def sessionTransitionTable : AgentSessionState → List AgentSessionState
  | .created => [.starting,.failed]
  | .starting => [.idle,.failed]
  | .idle => [.turnActive,.cancelling,.closed,.failed]
  | .turnActive => [.blockedOnApproval,.cancelling,.idle,.failed]
  | .blockedOnApproval => [.turnActive,.cancelling,.idle,.failed]
  | .cancelling => [.idle,.closed,.failed]
  | .closed => []
  | .failed => []

def turnTransitionTable : TurnState → List TurnState
  | .accepted => [.queued,.running,.failed,.cancelled]
  | .queued => [.running,.cancelling,.timedOut,.failed,.cancelled]
  | .running => [.blockedOnToolApproval,.cancelling,.completed,.timedOut,.failed]
  | .blockedOnToolApproval => [.running,.cancelling,.timedOut,.failed]
  | .cancelling => [.cancelled,.failed]
  | .cancelled => []
  | .timedOut => []
  | .completed => []
  | .failed => []

def canTransitionSession (source target : AgentSessionState) : Bool := (sessionTransitionTable source).contains target

def canTransitionTurn (source target : TurnState) : Bool := (turnTransitionTable source).contains target

/-- `createRuntimeFailure` without the optional fields. -/
def createRuntimeFailure (actor : RuntimeFailureActor) (category : RuntimeFailureCategory) (message : Text)
    (retryable : Bool) (scope : RuntimeFailureScope) : RuntimeFailure ν :=
  ⟨category,retryable,actor,scope,message,none,none,none⟩

def invalidTransition (what source target : String) (scope : RuntimeFailureScope) : RuntimeFailure ν :=
  createRuntimeFailure .provider .stateConflict
    (Text.of ("Invalid " ++ what ++ " transition " ++ source ++ " -> " ++ target ++ ".")) false scope

def applySessionTransition (source target : AgentSessionState) : Except (RuntimeFailure ν) AgentSessionState :=
  if canTransitionSession source target then .ok target
  else .error (invalidTransition "session" source.name target.name .session)

def applyTurnTransition (source target : TurnState) : Except (RuntimeFailure ν) TurnState :=
  if canTransitionTurn source target then .ok target
  else .error (invalidTransition "turn" source.name target.name .turn)

theorem applySessionTransition_eq_ok {source target state : AgentSessionState} :
    applySessionTransition (ν := ν) source target = .ok state ↔ target ∈ sessionTransitionTable source ∧ target = state := by
  unfold applySessionTransition canTransitionSession
  split_ifs with h
  · simpa using fun _ => by simpa using h
  · constructor
    · intro he
      cases he
    · rintro ⟨hmem,-⟩
      exact absurd (by simpa using hmem) h

theorem applyTurnTransition_eq_ok {source target state : TurnState} :
    applyTurnTransition (ν := ν) source target = .ok state ↔ target ∈ turnTransitionTable source ∧ target = state := by
  unfold applyTurnTransition canTransitionTurn
  split_ifs with h
  · simpa using fun _ => by simpa using h
  · constructor
    · intro he
      cases he
    · rintro ⟨hmem,-⟩
      exact absurd (by simpa using hmem) h

/-- The events that end a turn. -/
def RuntimeEventType.terminal : RuntimeEventType → Bool
  | .turnCompleted | .turnFailed | .turnCancelled | .turnTimedOut => true
  | _ => false

def requireSingleTerminalEvent (events : List (RuntimeEventEnvelope ν)) : Option (RuntimeFailure ν) :=
  if (events.filter fun e => e.payload.type.terminal).length ≤ 1 then none
  else some (createRuntimeFailure .provider .protocol
    (Text.of "Multiple normalized terminal turn events were emitted.") false .turn)

end OmniagentPlus.CoreContracts
