import OmniagentPlus.OmnigentTransport.FleetCalls
import OmniagentPlus.OmnigentTransport.HistoryLifecycle

/-! Runs of clients that share the leases and the fences of their sessions: what is asked is fenced, and no
fence is taken away but where it may be. -/
namespace OmniagentPlus.OmnigentTransport
open OmniagentPlus.Foundation OmniagentPlus.CoreContracts
variable {ν : Type}

/-- Clients of one lease authority and one store of fences. -/
def sharingOptions (allowQueuedTurns : ℕ → Bool) (client : ℕ) : OmnigentHttpClientOptions :=
  ⟨allowQueuedTurns client,true,true⟩

/-- The clients over time, and what is written down of them. -/
abbrev FleetSystem (ν : Type) := Concurrent (Action ν) Operation (Fleet ν) (Except (ProviderError ν) (CallResult ν))

def FleetSystem.initial (ν : Type) [JsNumber ν] : FleetSystem ν := ⟨Fleet.initial ν,[]⟩

/-- The request that a process is about to make. -/
def pendingRequest {α : Type} : Process (Action ν) α → Option FencedRequest
  | .done _ => none
  | .act x _ => x.asks

/-- What a process that has not crashed is about to ask for is as its fence allows. -/
def RequestsFenced (w : FleetSystem ν) : Prop :=
  ∀ (pid : ℕ) op x request, w.processes[pid]? = some (op,x) → w.shared.crashed pid = false →
    pendingRequest x = some request → request.Fenced op w.shared.fences

/-- No client cancels turns of two sessions under one key. -/
def DistinctKeys (moves : List (Move Operation (Answer ν))) : Prop :=
  ∀ client handle other, Move.start ⟨client,.cancelTurn handle⟩ ∈ moves → Move.start ⟨client,.cancelTurn other⟩ ∈ moves →
    cancelKey other = cancelKey handle → other.sessionId = handle.sessionId

namespace Fleet
variable [JsNumber ν] {isDatetime : Text → Bool}

theorem careful_callProcess {C : ℕ → MutableTurnHandle → Prop} {op : Operation} {o : OmnigentHttpClientOptions}
    (hleased : o.withExclusiveSessionLease = true)
    (hcancels : ∀ handle, op.call = .cancelTurn handle → C op.client handle ∧
      ∀ other, C op.client other → cancelKey other = cancelKey handle → other.sessionId = handle.sessionId) :
    Careful (ν := ν) C op (callProcess isDatetime o op.call) := by
  have hdone : ∀ {α : Type} {x : Async ν α} (f : α → CallResult ν), Careful C op x →
      Careful C op (do return f (← x)) := fun f hx => hx.bind fun a => (quiet_pure (f a)).careful
  cases hcall : op.call with
  | createSession request => exact hdone _ (careful_createSession request)
  | sendTurn request => exact hdone _ (careful_sendTurn hleased)
  | cancelTurn handle =>
    obtain ⟨hC,hunique⟩ := hcancels handle hcall
    exact hdone _ (careful_cancelTurn hcall hC hunique)
  | closeSession sessionId => exact hdone _ (careful_closeSession hcall)
  | getSessionInfo sessionId => exact hdone _ careful_getSessionInfo
  | readHistory sessionId afterSequence limit => exact hdone _ (careful_readHistory isDatetime afterSequence limit)
  | streamEvents sessionId afterSequence => exact hdone _ (careful_streamEvents isDatetime afterSequence hcall)

theorem initial_outlined {C : ℕ → MutableTurnHandle → Prop} :
    (FleetSystem.initial ν).Outlined (steadyWorld ν) (contract C) fun _ _ _ => True where
  inv := ⟨fun _ h => (by cases h),fun _ => ⟨fun _ _ h => (by cases h),fun _ h => (by cases h)⟩⟩
  outline _ _ _ h := by cases h

/-- A process that makes a request may be answered with an error. -/
theorem request_fails {pid : ℕ} (op : Operation) {β : Type} {x : Action ν β} {F : Fleet ν} {request : FencedRequest}
    (hasks : x.asks = some request) (hlive : F.crashed pid = false) :
    ∃ b F', (steadyWorld ν).perform pid op x F (.fails .other) = some (b,F') ∧ F'.asked = some request := by
  have hanswer : ∃ b, World.answer pid op.client x F.world (.fails .other) = some (b,F.world) := by
    cases x <;> cases hasks <;> exact ⟨_,rfl⟩
  have hholder : x.holder F.world (.fails .other) = none := by cases x <;> rfl
  have hwrites : x.writeError (.fails .other) = none := by cases x <;> cases hasks <;> rfl
  obtain ⟨b,hb⟩ := hanswer
  refine ⟨b,F.after pid op x (.fails .other) b F.world,?_,hasks⟩
  simp only [steadyWorld, Fleet.answer, hwrites, hlive, hholder, hb]
  rfl

end Fleet

section Runs
variable [JsNumber ν] {allowQueuedTurns : ℕ → Bool} {isDatetime : Text → Bool}

/-- As long as no client cancels turns of two sessions under one key, and no write of a fence is denied to a
process whose control request was accepted: what is about to be asked is fenced, and each step keeps the fences. -/
theorem fences_guarded {moves : List (Move Operation (Answer ν))} {w : FleetSystem ν}
    (hrun : run (Concurrent.step (steadyWorld ν) (operationProcess (sharingOptions allowQueuedTurns) isDatetime))
      (FleetSystem.initial ν) moves = some w) (hkeys : DistinctKeys moves) :
    RequestsFenced w ∧ ∀ pid answer w', Concurrent.step (steadyWorld ν)
      (operationProcess (sharingOptions allowQueuedTurns) isDatetime) w (.resume pid answer) = some w' →
        ∃ op x, w.processes[pid]? = some (op,x) ∧ Fleet.KeepsFences pid op w.shared w'.shared := by
  have hw := Concurrent.run_outlined_started (Fleet.initial_outlined (C := fun client handle =>
    Move.start ⟨client,.cancelTurn handle⟩ ∈ moves)) (fun pid op hop => Fleet.careful_callProcess rfl
      (fun handle hcall => ⟨?_,fun other hother hkey => ?_⟩) pid) hrun
  refine ⟨fun pid op x request hpid hlive hrequest => ?_,fun pid answer w' hstep => ?_⟩
  · cases x with
    | done r => cases hrequest
    | act x next =>
      obtain ⟨b,F',hperform,hasked⟩ := Fleet.request_fails op hrequest hlive
      have hstep : Concurrent.step (steadyWorld ν) (operationProcess (sharingOptions allowQueuedTurns) isDatetime) w
          (.resume pid (.fails .other)) = some ⟨F',w.processes.set pid (op,next b)⟩ := by
        rw [Concurrent.step, hpid]
        dsimp only
        rw [hperform]
        rfl
      obtain ⟨-,op',x',hpid',hguards⟩ := Concurrent.resume_spec hw hstep
      rw [hpid] at hpid'
      cases hpid'
      exact hguards.asked request hasked
  · obtain ⟨-,op,x,hpid,hguards⟩ := Concurrent.resume_spec hw hstep
    exact ⟨op,x,hpid,hguards.keeps⟩
  · rw [← hcall]
    exact hop
  · refine hkeys op.client handle other ?_ hother hkey
    rw [← hcall]
    exact hop

end Runs

/-- A client stops a session, up to the request. -/
def stopMoves (pid client : ℕ) (sessionId : String) : List (Move Operation (Answer ℕ)) :=
  [.start ⟨client,.closeSession (Text.of sessionId)⟩,.resume pid .proceeds,.resume pid .proceeds,.resume pid .proceeds,
    .resume pid .proceeds]

/-- A turn that runs, as the caller has it. -/
def runningTurn (sessionId turnId idempotencyKey : String) : MutableTurnHandle :=
  ⟨startOfEpoch,Text.of idempotencyKey,Text.of sessionId,.running,Text.of turnId,startOfEpoch⟩

/-- A session in which a turn runs. -/
def runningSession (sessionId turnId : String) : OmnigentSessionSnapshot ℕ :=
  ⟨some (Text.of turnId),some (Text.of turnId),startOfEpoch,Text.of sessionId,[],[],.running,Text.of "title",startOfEpoch⟩

/-- A client creates a session, and cancels the turn that runs in it up to the request. -/
def cancelMoves (pid client : ℕ) (sessionId turnId : String) : List (Move Operation (Answer ℕ)) :=
  [.start ⟨client,.createSession ⟨Text.of sessionId,Text.of "title"⟩⟩,.resume pid .proceeds,
    .resume pid (.snapshot (runningSession sessionId turnId)),.resume pid .proceeds,.resume pid .proceeds,
    .start ⟨client,.cancelTurn (runningTurn sessionId turnId "key")⟩,.resume (pid + 1) .proceeds,
    .resume (pid + 1) .proceeds,.resume (pid + 1) .proceeds,.resume (pid + 1) .proceeds,
    .resume (pid + 1) (.snapshot (runningSession sessionId turnId)),.resume (pid + 1) .proceeds,.resume (pid + 1) .proceeds]

/-- A session is stopped: the run up to the stop, then the accepted stop, then a denied write of the fence. -/
def deniedWrite : List (Move Operation (Answer ℕ)) :=
  stopMoves 0 0 "s" ++ [.resume 0 (.ack .handled),.resume 0 (.fails (policyDenial (Text.of "read only")))]

/-- Clients that do not queue turns. -/
def sharingSystem (world : Interpreter (Action ℕ) Operation (Fleet ℕ) (Answer ℕ)) :
    FleetSystem ℕ → Move Operation (Answer ℕ) → Option (FleetSystem ℕ) :=
  Concurrent.step world (operationProcess (sharingOptions fun _ => false) (fun _ => true))

/-- Two clients are about to interrupt two sessions and to stop two others, and a turn is cancelled once more. -/
def controlMoves : List (Move Operation (Answer ℕ)) :=
  cancelMoves 0 0 "a" "turn" ++ cancelMoves 2 0 "b" "turn" ++ stopMoves 4 0 "c" ++ stopMoves 5 1 "d" ++
    [.start ⟨0,.cancelTurn (runningTurn "a" "turn" "again")⟩]

lemma controlMoves_distinct : DistinctKeys controlMoves := by
  have hcancels : ∀ client handle, Move.start ⟨client,.cancelTurn handle⟩ ∈ controlMoves →
      handle = runningTurn "a" "turn" "key" ∨ handle = runningTurn "b" "turn" "key" ∨
        handle = runningTurn "a" "turn" "again" := by
    intro client handle h
    simp only [controlMoves, cancelMoves, stopMoves, List.cons_append, List.nil_append, List.mem_cons, Move.start.injEq,
      Operation.mk.injEq, ProviderCall.cancelTurn.injEq, reduceCtorEq, and_false, false_or, List.not_mem_nil, or_false] at h
    tauto
  have hkeys : cancelKey (runningTurn "a" "turn" "key") ≠ cancelKey (runningTurn "b" "turn" "key") := by decide +kernel
  intro client handle other h h' hkey
  obtain rfl | rfl | rfl := hcancels client handle h <;> obtain rfl | rfl | rfl := hcancels client other h' <;>
    first
    | rfl
    | exact absurd hkey hkeys
    | exact absurd hkey.symm hkeys

/-- The four requests are about to be made, each is fenced, and whatever comes of one keeps the fences. -/
theorem fences_guarded_controls : ∃ w, run (sharingSystem (steadyWorld ℕ)) (FleetSystem.initial ℕ) controlMoves = some w ∧
    w.processes.filterMap (fun process => pendingRequest process.2) =
      [.interrupt (Text.of "a"),.interrupt (Text.of "b"),.stop (Text.of "c"),.stop (Text.of "d")] ∧
    RequestsFenced w ∧ ∀ answer w', sharingSystem (steadyWorld ℕ) w (.resume 1 answer) = some w' →
      ∃ op x, w.processes[1]? = some (op,x) ∧ Fleet.KeepsFences 1 op w.shared w'.shared := by
  have hruns : ((run (sharingSystem (steadyWorld ℕ)) (FleetSystem.initial ℕ) controlMoves).map fun w =>
      w.processes.filterMap fun process => pendingRequest process.2) =
      some [.interrupt (Text.of "a"),.interrupt (Text.of "b"),.stop (Text.of "c"),.stop (Text.of "d")] := by
    decide +kernel
  obtain ⟨w,hw,hpending⟩ := Option.map_eq_some_iff.mp hruns
  obtain ⟨hfenced,hkeeps⟩ := fences_guarded hw controlMoves_distinct
  exact ⟨w,hw,hpending,hfenced,hkeeps 1⟩

/-- Where that write may be denied, a session that was stopped loses its fence without being marked as closed. -/
theorem deniedWrite_unfenced : ((run (sharingSystem (fleetWorld ℕ)) (FleetSystem.initial ℕ)
    (deniedWrite ++ [.resume 0 .proceeds])).map fun w => ((w.shared.fences (Text.of "s")).closing,
      (w.shared.fences (Text.of "s")).closed,(w.shared.replies 0).any isAcceptance)) = some (false,false,true) := by
  decide +kernel

end OmniagentPlus.OmnigentTransport
