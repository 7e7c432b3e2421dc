import OmniagentPlus.OmnigentTransport.ProviderStream
import Mathlib.Logic.Function.Basic

/-! Any number of providers over one server, one lease authority and one store of fences, with any
number of calls under way. -/
namespace OmniagentPlus.OmnigentTransport
open OmniagentPlus.Foundation OmniagentPlus.CoreContracts

/-- A call of a method; a handle that is cancelled is given as it is at the call. -/
inductive ProviderCall
  | createSession (request : CreateSessionRequest)
  | sendTurn (request : SendTurnRequest)
  | cancelTurn (handle : MutableTurnHandle)
  | closeSession (sessionId : Text)
  | getSessionInfo (sessionId : Text)
  | readHistory (sessionId : Text) (afterSequence limit : Option ℕ)
  | streamEvents (sessionId : Text) (afterSequence : Option ℕ)

/-- A call of one of the clients. -/
structure Operation where
  client : ℕ
  call : ProviderCall

inductive CallResult (ν : Type)
  | session (info : AgentSessionInfo ν)
  | handle (handle : ℕ)
  | history (history : SessionHistory ν)
  | finished

/-- What the rest of the world answers to an action. `losesReply` is a write that takes effect and is yet
reported as failed. -/
inductive Answer (ν : Type)
  | proceeds
  | fails (error : ProviderError ν)
  | losesReply (error : ProviderError ν)
  | time (now : Text)
  | snapshot (snapshot : OmnigentSessionSnapshot ν)
  | ack (ack : OmnigentEventAck)
  | items (items : List (OmnigentConversationItem ν))
  | frames (frames : List (OmnigentTaggedSseEvent ν × Text))

/-- The state of all. `created` has the process that the server gave a session id to; `sealed` says that the
fence was closed when the lease was last taken, or that a write which closes it was acknowledged. -/
structure World (ν : Type) where
  providers : ℕ → OmnigentHttpProvider ν
  fences : Text → OmnigentSessionMutationFenceState
  leases : Text → Option ℕ
  created : Text → Option ℕ
  isSealed : Text → Bool

namespace World
variable {ν : Type} (w : World ν)

def setProvider (client : ℕ) (p : OmnigentHttpProvider ν) : World ν :=
  { w with providers := Function.update w.providers client p }

def acquire (pid : ℕ) (sessionId : Text) : World ν :=
  { w with
    leases := Function.update w.leases sessionId (some pid)
    isSealed := Function.update w.isSealed sessionId (w.fences sessionId).closed }

def release (pid : ℕ) (sessionId : Text) : World ν :=
  if w.leases sessionId = some pid then { w with leases := Function.update w.leases sessionId none } else w

def writeFence (sessionId : Text) (state : OmnigentSessionMutationFenceState) : World ν :=
  { w with fences := Function.update w.fences sessionId state }

def acknowledgeWrite (sessionId : Text) (state : OmnigentSessionMutationFenceState) : World ν :=
  { w.writeFence sessionId state with
    isSealed := Function.update w.isSealed sessionId (w.isSealed sessionId || state.closed) }

def give (pid : ℕ) (sessionId : Text) : World ν :=
  { w with created := Function.update w.created sessionId (some pid) }

/-- An action of a process of a client under an answer, where the answer is one to it. -/
def answer (pid client : ℕ) : {β : Type} → Action ν β → World ν → Answer ν → Option (β × World ν)
  | _, .sync segment, w, .proceeds =>
    some ((segment (w.providers client)).1,w.setProvider client (segment (w.providers client)).2)
  | _, .now, w, .time now => some (.ok now,w)
  | _, .acquireLease sessionId, w, .proceeds => some (.ok (),w.acquire pid sessionId)
  | _, .acquireLease _, w, .fails error => some (.error error,w)
  | _, .releaseLease sessionId, w, .proceeds => some (.ok (),w.release pid sessionId)
  | _, .releaseLease sessionId, w, .fails error => some (.error error,w.release pid sessionId)
  | _, .readFence sessionId, w, .proceeds => some (.ok (w.fences sessionId),w)
  | _, .readFence _, w, .fails error => some (.error error,w)
  | _, .writeFence sessionId state, w, .proceeds => some (.ok (),w.acknowledgeWrite sessionId state)
  | _, .writeFence _ _, w, .fails error => some (.error error,w)
  | _, .writeFence sessionId state, w, .losesReply error => some (.error error,w.writeFence sessionId state)
  | _, .createSession _, w, .snapshot snapshot => some (.ok snapshot,w.give pid snapshot.id)
  | _, .createSession _, w, .fails error => some (.error error,w)
  | _, .getSession _, w, .snapshot snapshot => some (.ok snapshot,w)
  | _, .getSession _, w, .fails error => some (.error error,w)
  | _, .getHistory _, w, .items items => some (.ok items,w)
  | _, .getHistory _, w, .fails error => some (.error error,w)
  | _, .sendTurn _, w, .ack ack => some (.ok ack,w)
  | _, .sendTurn _, w, .fails error => some (.error error,w)
  | _, .interrupt _, w, .ack ack => some (.ok ack,w)
  | _, .interrupt _, w, .fails error => some (.error error,w)
  | _, .stopSession _, w, .ack ack => some (.ok ack,w)
  | _, .stopSession _, w, .fails error => some (.error error,w)
  | _, .openSessionStream _, w, .frames frames => some (.ok frames,w)
  | _, .openSessionStream _, w, .fails error => some (.error error,w)
  | _, .nextFrame, w, .proceeds => some (.ok (),w)
  | _, .nextFrame, w, .fails error => some (.error error,w)
  | _, .deliver _, w, .proceeds => some (.ok (),w)
  | _, .deliver _, w, .fails error => some (.error error,w)
  | _, .awaitSend promise, w, .proceeds =>
    ((w.providers client).sendOutcome promise).map (fun outcome => (outcome,w))
  | _, .awaitCreate promise, w, .proceeds =>
    ((w.providers client).createPromises[promise]?.getD none).map (fun outcome => (outcome,w))
  | _, _, _, _ => none

end World

/-- The action changes nothing but, where it fails, what is known. -/
def Action.isQuiet {ν : Type} : {β : Type} → Action ν β → Bool
  | _, .sync _ | _, .acquireLease _ | _, .releaseLease _ | _, .writeFence _ _ | _, .createSession _ => false
  | _, _ => true

namespace World
variable {ν : Type}

theorem answer_quiet {pid client : ℕ} {β : Type} {x : Action ν β} (hx : x.isQuiet = true) {w w' : World ν} {c : Answer ν}
    {b : β} (h : answer pid client x w c = some (b,w')) : w' = w := by
  cases x <;> cases c <;> simp_all [answer, Action.isQuiet]

/-- A lease is not taken while it is held, and the server gives out no session id twice. -/
def admits : {β : Type} → Action ν β → World ν → Answer ν → Bool
  | _, .acquireLease sessionId, w, .proceeds => (w.leases sessionId).isNone
  | _, .createSession _, w, .snapshot snapshot => (w.created snapshot.id).isNone
  | _, _, _, _ => true

end World

section System
variable (ν : Type)

/-- Leases and session ids of any kind. -/
def anyWorld : Interpreter (Action ν) Operation (World ν) (Answer ν) where
  perform pid op x w c := World.answer pid op.client x w c

/-- Exclusive leases and fresh session ids. -/
def orderlyWorld : Interpreter (Action ν) Operation (World ν) (Answer ν) where
  perform pid op x w c := if World.admits x w c then World.answer pid op.client x w c else none

variable {ν} [JsNumber ν] (options : ℕ → OmnigentHttpClientOptions) (isDatetime : Text → Bool)

/-- The process of a call. -/
def callProcess (options : OmnigentHttpClientOptions) : ProviderCall → Async ν (CallResult ν)
  | .createSession request => do return .session (← createSession request)
  | .sendTurn request => do return .handle (← sendTurn options request)
  | .cancelTurn handle => do return .handle (← cancelTurn handle options)
  | .closeSession sessionId => do
    closeSession options sessionId
    return .finished
  | .getSessionInfo sessionId => do return .session (← getSessionInfo options sessionId)
  | .readHistory sessionId afterSequence limit => do
    return .history (← readHistory options sessionId isDatetime afterSequence limit)
  | .streamEvents sessionId afterSequence => do
    streamEvents sessionId isDatetime options afterSequence
    return .finished

def operationProcess (op : Operation) : Process (Action ν) (Except (ProviderError ν) (CallResult ν)) :=
  (callProcess isDatetime (options op.client) op.call).run

/-- No call yet; the store may have fences from before. -/
def World.initial (fences : Text → OmnigentSessionMutationFenceState) : World ν where
  providers _ := {}
  fences := fences
  leases _ := none
  created _ := none
  isSealed sessionId := (fences sessionId).closed

/-- The whole system, over time. -/
abbrev ProviderSystem (ν : Type) := Concurrent (Action ν) Operation (World ν) (Except (ProviderError ν) (CallResult ν))

def ProviderSystem.initial (fences : Text → OmnigentSessionMutationFenceState) : ProviderSystem ν :=
  ⟨World.initial fences,[]⟩

end System
end OmniagentPlus.OmnigentTransport
