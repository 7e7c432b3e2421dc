import OmniagentPlus.CoreContracts.StateMachines
import OmniagentPlus.Foundation.Durable

/-! `reduceTurnState` of `state-machines.ts` beside `turnTransitionTable`. An event that completes a turn or
times it out ends it from wherever it stands. The states that are taken on are a path of the table exactly
where a turn completes while it runs and times out once it started. -/
namespace OmniagentPlus.CoreContracts
open OmniagentPlus.Foundation

/-- What an event comes to: the states that `state` takes on one after another, and whether the last is returned. -/
inductive TurnReduction
  | next (states : List TurnState)
  | done (states : List TurnState)
  deriving DecidableEq, Repr

section Reducer
variable (ν : Type)

/-- A round of the loop, which reads the type of the event. -/
def reduceTurnEvent (state : TurnState) : RuntimeEventType → Except (RuntimeFailure ν) TurnReduction
  | .turnStarted =>
    if state = .accepted ∨ state = .queued then do return .next [← applyTurnTransition state .running]
    else return .next []
  | .approvalRequest =>
    if state = .running then do return .next [← applyTurnTransition state .blockedOnToolApproval]
    else return .next []
  | .turnCompleted => return .done [.completed]
  | .turnFailed => return .done [.failed]
  | .turnCancelled => do
    let cancelling ← if state = .running ∨ state = .blockedOnToolApproval
      then do pure [← applyTurnTransition state .cancelling]
      else pure []
    let state := cancelling.getLastD state
    let last ← if state = .cancelling then applyTurnTransition state .cancelled else pure .cancelled
    return .done (cancelling ++ [last])
  | .turnTimedOut => return .done [.timedOut]
  | .heartbeat | .limit | .sessionClosed | .sessionCreated | .textDelta | .toolCall | .toolResult => return .next []

/-- The states that the loop takes on from a state. -/
def visitTurnStates (state : TurnState) : List RuntimeEventType → Except (RuntimeFailure ν) (List TurnState)
  | [] => return []
  | event :: events => do
    match ← reduceTurnEvent ν state event with
    | .done states => return states
    | .next states => return states ++ (← visitTurnStates (states.getLastD state) events)

def reduceTurnState (events : List RuntimeEventType) : Except (RuntimeFailure ν) TurnState := do
  return (← visitTurnStates ν .accepted events).getLastD .accepted

end Reducer

section Table

def TurnState.terminal (state : TurnState) : Prop := turnTransitionTable state = []

/-- The table lets a state stay as it is or go on. -/
def TurnStep (source target : TurnState) : Prop := target = source ∨ canTransitionTurn source target = true

/-- A step of the reducer: one that the table allows, or the end of a turn whose start, or the answer to whose
request for approval, no event told of. -/
def ReducerStep (source target : TurnState) : Prop :=
  TurnStep source target ∨ (source = .accepted ∨ source = .blockedOnToolApproval) ∧ target = .completed ∨
    source = .accepted ∧ target = .timedOut

instance decidableTerminal (state : TurnState) : Decidable state.terminal := inferInstanceAs (Decidable (_ = _))

instance decidableTurnStep (source target : TurnState) : Decidable (TurnStep source target) :=
  inferInstanceAs (Decidable (_ ∨ _))

instance decidableReducerStep (source target : TurnState) : Decidable (ReducerStep source target) :=
  inferInstanceAs (Decidable (_ ∨ _))

/-- After a terminal state nothing changes. -/
def StaysEnded (path : List TurnState) : Prop :=
  ∀ before state after, path = before ++ state :: after → state.terminal → ∀ later ∈ after, later = state

/-- What a turn's events are before the one that ends it. -/
def beforeEnd (events : List RuntimeEventType) : List RuntimeEventType := events.takeWhile fun event => !event.terminal

/-- A turn completes while it runs, started and not waiting for an approval since, and it times out once it started. -/
def EndsInOrder (events : List RuntimeEventType) : Prop :=
  (events.find? RuntimeEventType.terminal = some .turnCompleted → .turnStarted ∈ beforeEnd events ∧
    .approvalRequest ∉ (beforeEnd events).dropWhile (· != .turnStarted)) ∧
  (events.find? RuntimeEventType.terminal = some .turnTimedOut → .turnStarted ∈ beforeEnd events)

end Table

section Path
variable {ν : Type}

/-- Where the loop stands between two events. -/
def Resting (state : TurnState) : Prop := state = .accepted ∨ state = .running ∨ state = .blockedOnToolApproval

/-- Where an event that does not end the turn leaves the loop. -/
def restAfter (state : TurnState) : RuntimeEventType → TurnState
  | .turnStarted => if state = .accepted then .running else state
  | .approvalRequest => if state = .running then .blockedOnToolApproval else state
  | _ => state

/-- An event ends the turn from this state by the table. -/
def EndsFrom (state : TurnState) (event : RuntimeEventType) : Prop :=
  (event = .turnCompleted → state = .running) ∧ (event = .turnTimedOut → state ≠ .accepted)

theorem resting_restAfter {state : TurnState} (h : Resting state) (event : RuntimeEventType) :
    Resting (restAfter state event) := by
  rcases h with rfl | rfl | rfl <;> cases event <;> simp [restAfter, Resting]

/-- An event that does not end the turn keeps the state or takes an allowed step. -/
theorem reduceTurnEvent_next {state : TurnState} (h : Resting state) {event : RuntimeEventType}
    (hevent : event.terminal = false) : ∃ states, reduceTurnEvent ν state event = .ok (.next states) ∧
      states.getLastD state = restAfter state event ∧ List.IsChain TurnStep (state :: states) ∧
      ∀ s ∈ states, ¬s.terminal := by
  rcases h with rfl | rfl | rfl <;> cases event <;>
    first
    | exact absurd hevent (by decide)
    | exact ⟨[],rfl,rfl,by decide,by decide⟩
    | exact ⟨[_],rfl,rfl,by decide,by decide⟩

/-- An event that ends the turn does so in a terminal state, by the table or not. -/
theorem reduceTurnEvent_done {state : TurnState} (h : Resting state) {event : RuntimeEventType}
    (hevent : event.terminal = true) : ∃ passed last, reduceTurnEvent ν state event = .ok (.done (passed ++ [last])) ∧
      List.IsChain ReducerStep (state :: (passed ++ [last])) ∧
      (List.IsChain TurnStep (state :: (passed ++ [last])) ↔ EndsFrom state event) ∧ ∀ s ∈ passed, ¬s.terminal := by
  rcases h with rfl | rfl | rfl <;> cases event <;>
    first
    | exact absurd hevent (by decide)
    | exact ⟨[],_,rfl,by decide,by simp [EndsFrom]; decide,by decide⟩
    | exact ⟨[_],_,rfl,by decide,by simp [EndsFrom]; decide,by decide⟩

/-- The turn ends from this state by the table. -/
def OrderlyFrom (state : TurnState) : List RuntimeEventType → Prop
  | [] => True
  | event :: events => if event.terminal then EndsFrom state event else OrderlyFrom (restAfter state event) events

/-- Every list of events is reduced, through states of which only the last may be terminal. -/
theorem visitTurnStates_spec {state : TurnState} (h : Resting state) (events : List RuntimeEventType) :
    ∃ visited, visitTurnStates ν state events = .ok visited ∧ List.IsChain ReducerStep (state :: visited) ∧
      (List.IsChain TurnStep (state :: visited) ↔ OrderlyFrom state events) ∧
      (∀ s ∈ visited.dropLast, ¬s.terminal) ∧
      ((visited.getLastD state).terminal → ∀ more, visitTurnStates ν state (events ++ more) = .ok visited) := by
  induction events generalizing state with
  | nil =>
    refine ⟨[],rfl,by simp,by simp [OrderlyFrom],by simp,fun hterminal => ?_⟩
    rcases h with rfl | rfl | rfl <;> exact absurd hterminal (by decide)
  | cons event events ih =>
    cases hevent : event.terminal with
    | true =>
      obtain ⟨passed,last,hreduce,hsteps,hchain,hpassed⟩ := reduceTurnEvent_done (ν := ν) h hevent
      have hvisit : ∀ rest, visitTurnStates ν state (event :: rest) = .ok (passed ++ [last]) := by
        intro rest
        rw [visitTurnStates, hreduce]
        rfl
      refine ⟨passed ++ [last],hvisit events,hsteps,?_,by simpa using hpassed,fun _ more => hvisit (events ++ more)⟩
      rw [hchain, OrderlyFrom, if_pos hevent]
    | false =>
      obtain ⟨states,hreduce,hrest,hchain,hstates⟩ := reduceTurnEvent_next (ν := ν) h hevent
      obtain ⟨visited,hvisited,hsteps,horderly,hlast,hmore⟩ := ih (resting_restAfter h event)
      have hvisit : ∀ {rest v}, visitTurnStates ν (restAfter state event) rest = .ok v →
          visitTurnStates ν state (event :: rest) = .ok (states ++ v) := by
        intro rest v hv
        rw [visitTurnStates, hreduce]
        change (do return states ++ (← visitTurnStates ν (states.getLastD state) rest)) = _
        rw [hrest, hv]
        rfl
      refine ⟨states ++ visited,hvisit hvisited,?_,?_,?_,fun hterminal more => hvisit (hmore ?_ more)⟩
      · rw [Program.isChain_append, hrest]
        exact ⟨hchain.imp fun _ _ => Or.inl,hsteps⟩
      · rw [Program.isChain_append, hrest, horderly, OrderlyFrom, hevent]
        exact and_iff_right hchain
      · intro s hs
        rw [List.dropLast_append] at hs
        split_ifs at hs
        · exact hstates s (List.mem_of_mem_dropLast hs)
        · rcases List.mem_append.mp hs with hs | hs
          · exact hstates s hs
          · exact hlast s hs
      · rwa [Program.getLastD_append, hrest] at hterminal

/-- Nothing comes after a state of which only the last may be terminal. -/
theorem staysEnded_of_dropLast {path : List TurnState} (h : ∀ s ∈ path.dropLast, ¬s.terminal) : StaysEnded path := by
  rintro before state after rfl hterminal later hlater
  cases after with
  | nil => cases hlater
  | cons next after =>
    refine absurd hterminal (h state ?_)
    rw [List.dropLast_append_of_ne_nil (by simp)]
    simp [List.dropLast]

theorem orderlyFrom_blocked (events : List RuntimeEventType) : OrderlyFrom .blockedOnToolApproval events ↔
    events.find? RuntimeEventType.terminal ≠ some .turnCompleted := by
  induction events with
  | nil => simp [OrderlyFrom]
  | cons event events ih =>
    cases event <;> simp_all [OrderlyFrom, RuntimeEventType.terminal, restAfter, EndsFrom]

theorem orderlyFrom_running (events : List RuntimeEventType) : OrderlyFrom .running events ↔
    (events.find? RuntimeEventType.terminal = some .turnCompleted → .approvalRequest ∉ beforeEnd events) := by
  induction events with
  | nil => simp [OrderlyFrom]
  | cons event events ih =>
    have hblocked := orderlyFrom_blocked events
    cases event <;> simp_all [OrderlyFrom, RuntimeEventType.terminal, restAfter, EndsFrom, beforeEnd]

theorem orderlyFrom_accepted (events : List RuntimeEventType) : OrderlyFrom .accepted events ↔ EndsInOrder events := by
  induction events with
  | nil => simp [OrderlyFrom, EndsInOrder]
  | cons event events ih =>
    have hrunning := orderlyFrom_running events
    cases event <;> simp_all [OrderlyFrom, RuntimeEventType.terminal, restAfter, EndsFrom, EndsInOrder, beforeEnd]

variable (ν) in
/-- Every list of events is reduced to the last of the states that are taken on, by steps of the reducer, and nothing
changes after a terminal state, whatever events come. The states are a path of the transition table exactly where the
turn ends in order. -/
theorem reduceTurnState_refines_iff (events : List RuntimeEventType) :
    ∃ visited, visitTurnStates ν .accepted events = .ok visited ∧
      reduceTurnState ν events = .ok (visited.getLastD .accepted) ∧
      List.IsChain ReducerStep (.accepted :: visited) ∧ StaysEnded (.accepted :: visited) ∧
      ((visited.getLastD .accepted).terminal →
        ∀ more, visitTurnStates ν .accepted (events ++ more) = .ok visited) ∧
      (List.IsChain TurnStep (.accepted :: visited) ↔ EndsInOrder events) := by
  obtain ⟨visited,hvisit,hsteps,hchain,hlast,hmore⟩ := visitTurnStates_spec (ν := ν) (.inl rfl) events
  have hended : StaysEnded (.accepted :: visited) := by
    refine staysEnded_of_dropLast fun s hs => ?_
    cases visited with
    | nil => cases hs
    | cons first rest =>
      rcases List.mem_cons.mp hs with rfl | hs
      · decide
      · exact hlast s hs
  refine ⟨visited,hvisit,by rw [reduceTurnState, hvisit]; rfl,hsteps,hended,hmore,?_⟩
  rw [hchain, orderlyFrom_accepted]

/-- A turn may complete that waits for an approval, which the table does not let it. -/
theorem blockedTurn_completes : ∃ visited,
    visitTurnStates Unit .accepted [.turnStarted,.approvalRequest,.turnCompleted] = .ok visited ∧
      ¬List.IsChain TurnStep (.accepted :: visited) :=
  ⟨[.running,.blockedOnToolApproval,.completed],rfl,by decide⟩

end Path
end OmniagentPlus.CoreContracts
