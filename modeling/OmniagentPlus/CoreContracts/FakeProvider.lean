import OmniagentPlus.CoreContracts.FakeEventStream
import OmniagentPlus.Foundation.Dictionary
import OmniagentPlus.Foundation.Transition

/-! `fake-provider.ts`: the fake agent runtime. Its calls run to their end but for `closeSession`, which
waits once where it cancels a turn. -/
namespace OmniagentPlus.CoreContracts.FakeRuntime
open OmniagentPlus.Foundation OmniagentPlus.CoreContracts
variable {ν : Type}

structure MutableAgentSessionInfo where
  activeTurnId : Option Text
  createdAt : Text
  eventCursor : ℕ
  id : Text
  rootSessionId : Text
  state : AgentSessionState
  title : Text
  updatedAt : Text
  deriving DecidableEq, Repr

structure MutableTurnHandle where
  createdAt : Text
  eventCursor : ℕ
  idempotencyKey : Text
  sessionId : Text
  state : TurnState
  turnId : Text
  updatedAt : Text
  deriving DecidableEq, Repr

/-- The promise of the close: it waits for the cancellation of a turn, which came to `cancelled`, or it
is settled. -/
inductive ClosePromise (ν : Type)
  | waiting (cancelled : Except (FakeError ν) Unit)
  | fulfilled
  | rejected (error : FakeError ν)

/-- A session. A handle is known by its place in `handles`, where all that hold it see it change. -/
structure FakeSessionRecord (ν : Type) where
  session : MutableAgentSessionInfo
  stream : FakeEventStream ν
  handles : List MutableTurnHandle := []
  turnsById : Dictionary Text ℕ := .empty
  turnsByKey : Dictionary Text ℕ := .empty
  createKey : Text
  closePromise : Option (ClosePromise ν) := none

structure CreateSessionRequest where
  idempotencyKey : Text
  title : Text
  deriving DecidableEq, Repr

structure SendTurnRequest where
  sessionId : Text
  turnId : Option Text
  idempotencyKey : Text
  message : Text
  deriving DecidableEq, Repr

/-- `createSessionRequestSchema` -/
def CreateSessionRequest.parses (request : CreateSessionRequest) : Bool :=
  !request.idempotencyKey.isEmpty && !request.title.isEmpty

/-- `sendTurnRequestSchema` -/
def SendTurnRequest.parses (request : SendTurnRequest) : Bool :=
  !request.sessionId.isEmpty && optionalNonempty request.turnId && !request.idempotencyKey.isEmpty

def normalTerminalFixture : List UpstreamFixtureEvent :=
  [{ type := "response.in_progress" },{ type := "response.output_text.delta" },{ type := "response.completed" },
    { type := "turn.completed" }]

def cancelTerminalFixture : List UpstreamFixtureEvent :=
  [{ type := "response.incomplete", reason := some "user_interrupt" }]

def sessionStateAfterClose (currentState : AgentSessionState) : Except (RuntimeFailure ν) AgentSessionState :=
  if currentState = .idle then applySessionTransition currentState .closed
  else if currentState = .cancelling then applySessionTransition currentState .closed
  else .ok currentState

def unknownTurn (turnId : Text) : FakeError ν :=
  .failure (createRuntimeFailure .provider .validation (Text.of "Unknown turn " ++ turnId ++ Text.of ".") false .turn)

def concurrentTurn : FakeError ν :=
  .failure (createRuntimeFailure .provider .concurrencyLimit
    (Text.of "Only one active turn is allowed per session.") false .session)

section Record
variable [JsNumber ν] (isDatetime : Text → Bool) (now : Text)

namespace FakeSessionRecord
variable (r : FakeSessionRecord ν)

/-- A handle takes a change in place. -/
def changeHandle (handle : ℕ) (change : MutableTurnHandle → MutableTurnHandle) : FakeSessionRecord ν :=
  { r with handles := r.handles.modify handle change }

/-- The `runtime.turn.started` event of `sendTurn`. -/
def startedEvent (request : SendTurnRequest) (turnId : Text) : RuntimeEventEnvelope ν where
  eventId := turnId ++ Text.of "-started"
  sequence := 1
  sessionId := request.sessionId
  turnId := some turnId
  occurredAt := now
  payload := .turnStarted request.message .running
  redaction := .metadataOnly
  terminal := false

/-- `sendTurn`, once the session is found. -/
def sendTurn (request : SendTurnRequest) : Except (FakeError ν) ℕ × FakeSessionRecord ν :=
  match r.turnsByKey.get? request.idempotencyKey with
  | some existing => (.ok existing,r)
  | none =>
    if (Text.truthy r.session.activeTurnId).isSome then (.error concurrentTurn,r)
    else
      let turnId := request.turnId.getD (Text.of "turn-" ++ request.idempotencyKey)
      let turnHandle := r.handles.length
      match applySessionTransition r.session.state .turnActive with
      | .error e => (.error (.failure e),r)
      | .ok state =>
        let r := { r with
          session := { r.session with activeTurnId := some turnId, state, updatedAt := now }
          handles := r.handles ++ [⟨now,r.stream.lastSequence,request.idempotencyKey,request.sessionId,.running,turnId,now⟩]
          turnsById := r.turnsById.set turnId turnHandle
          turnsByKey := r.turnsByKey.set request.idempotencyKey turnHandle }
        -- the event is checked twice: by `createRuntimeEvent` and again by `append`
        match (createRuntimeEvent isDatetime (startedEvent now request turnId)).bind (r.stream.append isDatetime) with
        | none => (.error .schema,r)
        | some stream =>
          let r := { r with stream := stream, session := { r.session with eventCursor := stream.lastSequence } }
          (.ok turnHandle,r.changeHandle turnHandle fun h => { h with eventCursor := r.session.eventCursor })

/-- What `cancelTurn` and `completeTurn` do once the events of the fixture are in the stream. -/
def endTurn (handle : ℕ) (state : TurnState) : Except (FakeError ν) ℕ × FakeSessionRecord ν :=
  let r := r.changeHandle handle fun h => { h with
    state := state, updatedAt := now, eventCursor := r.stream.lastSequence }
  match applySessionTransition r.session.state .idle with
  | .error e => (.error (.failure e),r)
  | .ok state =>
    (.ok handle,{ r with session := { r.session with
      state := state, activeTurnId := none, updatedAt := now, eventCursor := r.stream.lastSequence } })

/-- `cancelTurn`, once the session is found. -/
def cancelTurn (turnId : Text) : Except (FakeError ν) ℕ × FakeSessionRecord ν :=
  match (r.turnsById.get? turnId).bind fun i => r.handles[i]?.map fun h => (i,h) with
  | none => (.error (unknownTurn turnId),r)
  | some (existing,existingHandle) =>
    if existingHandle.state = .cancelled then (.ok existing,r)
    else
      match applyTurnTransition existingHandle.state .cancelling with
      | .error e => (.error (.failure e),r)
      | .ok state =>
        let r := r.changeHandle existing fun h => { h with state := state }
        match r.stream.appendFixture isDatetime now cancelTerminalFixture turnId with
        | (.error e,stream) => (.error e,{ r with stream := stream })
        | (.ok _,stream) => endTurn now { r with stream := stream } existing .cancelled

/-- `completeTurn`, once the session is found. -/
def completeTurn (turnId : Text) : Except (FakeError ν) ℕ × FakeSessionRecord ν :=
  match (r.turnsById.get? turnId).bind fun i => r.handles[i]?.map fun h => (i,h) with
  | none => (.error (unknownTurn turnId),r)
  | some (handle,existing) =>
    if existing.state = .completed then (.ok handle,r)
    else
      match applyTurnTransition existing.state .completed with
      | .error e => (.error (.failure e),r)
      | .ok completedState =>
        match r.stream.appendFixture isDatetime now normalTerminalFixture turnId with
        | (.error e,stream) => (.error e,{ r with stream := stream })
        | (.ok _,stream) => endTurn now { r with stream := stream } handle completedState

/-- The `runtime.session.closed` event of `closeSession`. -/
def closedEvent : RuntimeEventEnvelope ν where
  eventId := r.session.id ++ Text.of "-closed"
  sequence := 1
  sessionId := r.session.id
  turnId := none
  occurredAt := now
  payload := .sessionClosed .logicalClose
  redaction := .metadataOnly
  terminal := true

/-- The part of `closeSession` after its `await`. -/
def finishClose : FakeSessionRecord ν :=
  match sessionStateAfterClose r.session.state with
  | .error e => { r with closePromise := some (.rejected (.failure e)) }
  | .ok state =>
    let r := { r with session := { r.session with state := state, updatedAt := now } }
    match r.stream.append isDatetime (closedEvent now r) with
    | none => { r with closePromise := some (.rejected .schema) }
    | some stream =>
      { r with
        stream := stream
        session := { r.session with eventCursor := stream.lastSequence }
        closePromise := some .fulfilled }

/-- `closeSession`, once the session is found, up to its `await` where there is a turn to cancel. -/
def closeSession : FakeSessionRecord ν :=
  if r.session.state = .closed then r
  else if r.closePromise.isSome then r
  else
    match ((Text.truthy r.session.activeTurnId).bind r.turnsById.get?).bind (r.handles[·]?) with
    | none => finishClose isDatetime now r
    | some activeHandle =>
      let cancelled := cancelTurn isDatetime now r activeHandle.turnId
      { cancelled.2 with closePromise := some (.waiting (cancelled.1.map fun _ => ())) }

/-- `closeSession` from its `await` on. -/
def resumeClose (cancelled : Except (FakeError ν) Unit) : FakeSessionRecord ν :=
  match cancelled with
  | .error e => { r with closePromise := some (.rejected e) }
  | .ok _ => finishClose isDatetime now r

end FakeSessionRecord
end Record

structure FakeAgentRuntimeProvider (ν : Type) where
  sessionsById : Dictionary Text (FakeSessionRecord ν) := .empty
  sessionsByCreateKey : Dictionary Text Text := .empty

inductive FakeCall
  | createSession (request : CreateSessionRequest)
  | sendTurn (request : SendTurnRequest)
  | cancelTurn (sessionId turnId : Text)
  | completeTurn (sessionId turnId : Text)
  | closeSession (sessionId : Text)
  deriving DecidableEq, Repr

/-- A call, or a `closeSession` that goes on after its `await`. -/
inductive FakeMove
  | call (now : Text) (call : FakeCall)
  | resumeClose (now sessionId : Text)
  deriving DecidableEq, Repr

def FakeMove.now : FakeMove → Text
  | .call now _ => now
  | .resumeClose now _ => now

namespace FakeAgentRuntimeProvider
variable [JsNumber ν] (isDatetime : Text → Bool) (now : Text) (p : FakeAgentRuntimeProvider ν)

/-- `this.getRecord(sessionId)`; where there is none the call throws and leaves all as it is. -/
def onRecord (sessionId : Text) (change : FakeSessionRecord ν → FakeSessionRecord ν) : FakeAgentRuntimeProvider ν :=
  match p.sessionsById.get? sessionId with
  | none => p
  | some record => { p with sessionsById := p.sessionsById.set sessionId (change record) }

/-- The `runtime.session.created` event of `createSession`. -/
def createdEvent (sessionId title : Text) : RuntimeEventEnvelope ν where
  eventId := sessionId ++ Text.of "-created"
  sequence := 1
  sessionId := sessionId
  turnId := none
  occurredAt := now
  payload := .sessionCreated .idle title
  redaction := .metadataOnly
  terminal := false

/-- The id that `createSession` gives a session. -/
def sessionIdOf (createKey : Text) : Text := Text.of "session-" ++ createKey

def createSession (request : CreateSessionRequest) : FakeAgentRuntimeProvider ν :=
  if !request.parses then p
  else if (Text.truthy (p.sessionsByCreateKey.get? request.idempotencyKey)).isSome then p
  else
    let sessionId := sessionIdOf request.idempotencyKey
    let stream : FakeEventStream ν := { sessionId := sessionId, turnId := sessionId ++ Text.of "-bootstrap" }
    match (createRuntimeEvent isDatetime (createdEvent now sessionId request.title)).bind (stream.append isDatetime) with
    | none => p
    | some stream =>
      { sessionsById := p.sessionsById.set sessionId
          { session := ⟨none,now,stream.lastSequence,sessionId,sessionId,.idle,request.title,now⟩
            stream := stream
            createKey := request.idempotencyKey }
        sessionsByCreateKey := p.sessionsByCreateKey.set request.idempotencyKey sessionId }

/-- A call up to its end, or to its `await`. -/
def call : FakeCall → FakeAgentRuntimeProvider ν
  | .createSession request => createSession isDatetime now p request
  | .sendTurn request =>
    if request.parses then p.onRecord request.sessionId fun r => (r.sendTurn isDatetime now request).2 else p
  | .cancelTurn sessionId turnId => p.onRecord sessionId fun r => (r.cancelTurn isDatetime now turnId).2
  | .completeTurn sessionId turnId => p.onRecord sessionId fun r => (r.completeTurn isDatetime now turnId).2
  | .closeSession sessionId => p.onRecord sessionId fun r => r.closeSession isDatetime now

/-- One stretch of the runtime between two suspensions. -/
def step : FakeMove → Option (FakeAgentRuntimeProvider ν)
  | .call now c => some (call isDatetime now p c)
  | .resumeClose now sessionId => do
    let record ← p.sessionsById.get? sessionId
    match record.closePromise with
    | some (.waiting cancelled) => some (p.onRecord sessionId fun r => r.resumeClose isDatetime now cancelled)
    | _ => none

end FakeAgentRuntimeProvider
end OmniagentPlus.CoreContracts.FakeRuntime
