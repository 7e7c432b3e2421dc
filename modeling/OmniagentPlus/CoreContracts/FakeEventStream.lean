import OmniagentPlus.CoreContracts.StateMachines

/-! `fake-event-stream.ts`: the events of a session of the fake runtime. An error of the event
schema is `none`; `now` is the reading of the clock in the call. -/
namespace OmniagentPlus.CoreContracts.FakeRuntime
open OmniagentPlus.Foundation OmniagentPlus.CoreContracts
variable {ν : Type} [JsNumber ν] (isDatetime : Text → Bool) (now : Text)

/-- What is thrown: a schema error or a `RuntimeFailure`. -/
inductive FakeError (ν : Type)
  | schema
  | failure (failure : RuntimeFailure ν)

structure UpstreamFixtureEvent where
  type : String
  reason : Option String := none
  deriving DecidableEq, Repr

section Normalize
variable (sessionId turnId : Text)

/-- `${turnId}-${kind}-${sequence}` -/
def fixtureEventId (kind : String) (sequence : ℕ) : Text := turnId ++ Text.of ("-" ++ kind ++ "-" ++ toString sequence)

/-- An event as the fixture normalization makes it. -/
def fixtureEvent (kind : String) (sequence : ℕ) (payload : RuntimeEventPayload ν) (terminal : Bool) :
    Option (RuntimeEventEnvelope ν) :=
  createRuntimeEvent isDatetime
    { eventId := fixtureEventId turnId kind sequence
      sequence
      sessionId
      turnId := some turnId
      occurredAt := now
      payload
      redaction := .metadataOnly
      terminal }

/-- `none` for a thrown error, `some none` for `null`. -/
def terminalEventFromUpstream (sequence : ℕ) (event : UpstreamFixtureEvent) : Option (Option (RuntimeEventEnvelope ν)) :=
  if event.type = "response.completed" ∨ event.type = "turn.completed" then
    (fixtureEvent isDatetime now sessionId turnId "terminal-completed" sequence
      (.turnCompleted (some (Text.of "Normalized upstream completion."))) true).map some
  else if event.type = "response.failed" ∨ event.type = "turn.failed" then
    (fixtureEvent isDatetime now sessionId turnId "terminal-failed" sequence
      (.turnFailed (createRuntimeFailure .omnigent .backendUnavailable (Text.of "Normalized upstream failure.") false
        .turn)) true).map some
  else if event.type = "response.incomplete" ∧ event.reason = some "user_interrupt" then
    (fixtureEvent isDatetime now sessionId turnId "terminal-cancelled" sequence
      (.turnCancelled (some (Text.of "user_interrupt"))) true).map some
  else some none

/-- The variables of the loop. -/
structure NormalizedFixture (ν : Type) where
  events : List (RuntimeEventEnvelope ν) := []
  skippedFrames : List String := []
  sequence : ℕ := 1
  terminalEmitted : Bool := false
  startedEmitted : Bool := false

def NormalizedFixture.push (s : NormalizedFixture ν) (event : RuntimeEventEnvelope ν) : NormalizedFixture ν :=
  { s with events := s.events ++ [event], sequence := s.sequence + 1 }

def normalizeFixtureEvent (s : NormalizedFixture ν) (event : UpstreamFixtureEvent) : Option (NormalizedFixture ν) :=
  if !s.startedEmitted && event.type = "response.in_progress" then do
    let started ← fixtureEvent isDatetime now sessionId turnId "started" s.sequence
      (.turnStarted (Text.of "Normalized upstream turn start.") .running) false
    some { s.push started with startedEmitted := true }
  else if event.type = "response.output_text.delta" then do
    some (s.push (← fixtureEvent isDatetime now sessionId turnId "delta" s.sequence
      (.textDelta (Text.of "normalized delta")) false))
  else do
    match ← terminalEventFromUpstream isDatetime now sessionId turnId s.sequence event with
    | some terminalEvent => some (if s.terminalEmitted then s else { s.push terminalEvent with terminalEmitted := true })
    | none =>
      if event.type ∈ ["session.status","session.interrupted","[DONE]"] then some s
      else some { s with skippedFrames := s.skippedFrames ++ [event.type] }

def normalizeOmnigentFixture (upstreamEvents : List UpstreamFixtureEvent) : Option (NormalizedFixture ν) :=
  upstreamEvents.foldlM (normalizeFixtureEvent isDatetime now sessionId turnId) {}

end Normalize

structure FakeEventStream (ν : Type) where
  sessionId : Text
  turnId : Text
  events : List (RuntimeEventEnvelope ν) := []
  nextSequence : ℕ := 1

namespace FakeEventStream
variable (s : FakeEventStream ν)

def lastSequence : ℕ := s.nextSequence - 1

/-- The stream with the event; the event takes the next sequence number. -/
def append (event : RuntimeEventEnvelope ν) : Option (FakeEventStream ν) := do
  let runtimeEvent ← createRuntimeEvent isDatetime { event with sequence := s.nextSequence }
  some { s with events := s.events ++ [runtimeEvent], nextSequence := s.nextSequence + 1 }

/-- The events in turn; where one is refused those before it stay. -/
def appendAll : List (RuntimeEventEnvelope ν) → FakeEventStream ν → Except (FakeError ν) Unit × FakeEventStream ν
  | [], s => (.ok (),s)
  | event :: events, s =>
    match s.append isDatetime event with
    | none => (.error .schema,s)
    | some s => appendAll events s

def appendFixture (upstreamEvents : List UpstreamFixtureEvent) (turnId : Text) :
    Except (FakeError ν) Unit × FakeEventStream ν :=
  match normalizeOmnigentFixture isDatetime now s.sessionId turnId upstreamEvents with
  | none => (.error .schema,s)
  | some normalized =>
    match appendAll isDatetime normalized.events s with
    | (.error e,s') => (.error e,s')
    | (.ok _,s') =>
      match requireSingleTerminalEvent (s'.events.drop s.events.length) with
      | some terminalFailure => (.error (.failure terminalFailure),s')
      | none => (.ok (),s')

end FakeEventStream
end OmniagentPlus.CoreContracts.FakeRuntime
