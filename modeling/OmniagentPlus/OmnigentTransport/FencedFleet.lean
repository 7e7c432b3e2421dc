import OmniagentPlus.OmnigentTransport.SessionSteps
import OmniagentPlus.OmnigentTransport.ProviderSystem

/-! Clients that share the leases and the fences of their sessions. A lease is exclusive: it passes on from
a process that holds it only when that process has crashed. What was asked, replied and seen is written down. -/
namespace OmniagentPlus.OmnigentTransport
open OmniagentPlus.Foundation OmniagentPlus.CoreContracts
variable {ν : Type}

/-- A request that depends on the fence of a session. -/
inductive FencedRequest
  | message (sessionId : Text)
  | interrupt (sessionId : Text)
  | stop (sessionId : Text)
  deriving DecidableEq

namespace Action

/-- The request that an action makes. -/
def asks : {β : Type} → Action ν β → Option FencedRequest
  | _, .sendTurn request => some (.message request.sessionId)
  | _, .interrupt sessionId => some (.interrupt sessionId)
  | _, .stopSession sessionId => some (.stop sessionId)
  | _, _ => none

/-- What a control request comes to. -/
def controlReply : {β : Type} → Action ν β → β → Option (Except (ProviderError ν) OmnigentEventAck)
  | _, .interrupt _, reply => some reply
  | _, .stopSession _, reply => some reply
  | _, _, _ => none

/-- The process that holds the lease which the action takes. -/
def holder : {β : Type} → Action ν β → World ν → Answer ν → Option ℕ
  | _, .acquireLease sessionId, w, .proceeds => w.leases sessionId
  | _, _, _, _ => none

/-- The error of a write of a fence. -/
def writeError : {β : Type} → Action ν β → Answer ν → Option (ProviderError ν)
  | _, .writeFence _ _, .fails error => some error
  | _, .writeFence _ _, .losesReply error => some error
  | _, _, _ => none

/-- The action touches neither a client nor a fence nor a lease, and asks for nothing that depends on a fence. -/
def isIdle : {β : Type} → Action ν β → Bool
  | _, .sync _ | _, .acquireLease _ | _, .releaseLease _ | _, .writeFence _ _ | _, .sendTurn _ | _, .interrupt _
  | _, .stopSession _ => false
  | _, _ => true

end Action

/-- The request was denied explicitly. -/
def isDenial : Except (ProviderError ν) OmnigentEventAck → Bool
  | .ok (.denied _) => true
  | .error error => isPolicyDenied error
  | _ => false

/-- The request was accepted. -/
def isAcceptance : Except (ProviderError ν) OmnigentEventAck → Bool
  | .ok .handled => true
  | _ => false

/-- The event interrupts the session or is attributed to the turn. -/
def Concerns (event : OmnigentRawEvent ν) (turnId : Text) : Prop :=
  event.type = .stream .sessionInterrupted ∨ event.turnId = some turnId ∨ event.turnAliasId = some turnId

/-- The client of a stream of the session sees the event. -/
inductive Observes [JsNumber ν] (op : Operation) (sessionId : Text) (event : OmnigentRawEvent ν) :
    {β : Type} → Action ν β → β → Prop
  | frame {afterSequence : Option ℕ} {stream : ℕ} {tagged : OmnigentTaggedSseEvent ν} {now : Text}
      (hcall : op.call = .streamEvents sessionId afterSequence) :
      Observes op sessionId event (.sync (normalizeFrame sessionId stream tagged now)) (.ok (some event))

/-- The world, the processes that crashed, the last request that was made, what the control request of each
process came to, and the events that each client saw on a session. -/
structure Fleet (ν : Type) where
  world : World ν
  crashed : ℕ → Bool
  asked : Option FencedRequest
  replies : ℕ → Option (Except (ProviderError ν) OmnigentEventAck)
  observed : ℕ → Text → OmnigentRawEvent ν → Prop

namespace Fleet
variable (F : Fleet ν)

def fences (sessionId : Text) : OmnigentSessionMutationFenceState := F.world.fences sessionId

/-- The client saw an event of the turn, or an interruption of its session. -/
def SawEventOf (client : ℕ) (sessionId turnId : Text) : Prop :=
  ∃ event, F.observed client sessionId event ∧ Concerns event turnId

variable [JsNumber ν]

/-- An action that was answered is written down. -/
def after (pid : ℕ) (op : Operation) {β : Type} (x : Action ν β) (c : Answer ν) (b : β) (w : World ν) : Fleet ν where
  world := w
  crashed := fun other => F.crashed other || decide (x.holder F.world c = some other)
  asked := x.asks
  replies := fun other => if other = pid then (x.controlReply b).or (F.replies pid) else F.replies other
  observed := fun client sessionId event =>
    F.observed client sessionId event ∨ (client = op.client ∧ Observes op sessionId event x b)

/-- A process that crashed takes no more actions, and none takes a lease that it holds. -/
def answer (pid : ℕ) (op : Operation) {β : Type} (x : Action ν β) (c : Answer ν) : Option (β × Fleet ν) :=
  if F.crashed pid || decide (x.holder F.world c = some pid) then none
  else (World.answer pid op.client x F.world c).map (fun r => (r.1,F.after pid op x c r.1 r.2))

end Fleet

section System
variable (ν) [JsNumber ν]

def fleetWorld : Interpreter (Action ν) Operation (Fleet ν) (Answer ν) where
  perform pid op x F c := F.answer pid op x c

/-- No write of a fence is denied to a process whose control request was accepted. -/
def steadyWorld : Interpreter (Action ν) Operation (Fleet ν) (Answer ν) where
  perform pid op x F c :=
    if (x.writeError c).any isPolicyDenied && (F.replies pid).any isAcceptance then none else F.answer pid op x c

/-- No call yet, and no fence. -/
def Fleet.initial : Fleet ν := ⟨World.initial fun _ => {},fun _ => false,none,fun _ => none,fun _ _ _ => False⟩

end System

/-- The fence is as the request requires. -/
def FencedRequest.Fenced (op : Operation) (fences : Text → OmnigentSessionMutationFenceState) : FencedRequest → Prop
  | .message sessionId => (fences sessionId).cancellation = none ∧ (fences sessionId).closing = false ∧
      (fences sessionId).closed = false
  | .interrupt sessionId => ∃ handle, op.call = .cancelTurn handle ∧ handle.sessionId = sessionId ∧
      (fences sessionId).cancellation.map (·.turnId) = some handle.turnId
  | .stop sessionId => op.call = .closeSession sessionId ∧ (fences sessionId).closing = true

namespace Fleet

/-- The process may take away the cancellation fence of the turn: its interrupt was denied, or its client saw an event
of the turn or an interruption of the session. -/
def Released (F : Fleet ν) (pid : ℕ) (op : Operation) (sessionId turnId : Text) : Prop :=
  (∃ handle, op.call = .cancelTurn handle ∧ handle.sessionId = sessionId ∧ handle.turnId = turnId ∧
    (F.replies pid).any isDenial = true) ∨ F.SawEventOf op.client sessionId turnId

/-- The process took away no fence that it may not. -/
structure KeepsFences (pid : ℕ) (op : Operation) (F F' : Fleet ν) : Prop where
  cancellation : ∀ sessionId fence, (F.fences sessionId).cancellation = some fence →
    (F'.fences sessionId).cancellation.map (·.turnId) = some fence.turnId ∨ F.Released pid op sessionId fence.turnId
  closing : ∀ sessionId, (F.fences sessionId).closing = true →
    (F'.fences sessionId).closing = true ∨ (F'.fences sessionId).closed = true ∨
      (op.call = .closeSession sessionId ∧ (F.replies pid).any isDenial = true)

end Fleet
end OmniagentPlus.OmnigentTransport
