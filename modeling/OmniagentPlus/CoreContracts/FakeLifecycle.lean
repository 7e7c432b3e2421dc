import OmniagentPlus.CoreContracts.FakeProvider

/-! The lifecycle of the fake runtime's sessions over every interleaving of its calls. -/
namespace OmniagentPlus.CoreContracts.FakeRuntime
open OmniagentPlus.Foundation OmniagentPlus.CoreContracts
variable {ν : Type} {isDatetime : Text → Bool} {now : Text}

/-- The events are in the stream after what was there; only their numbers differ. -/
def Extends (s t : FakeEventStream ν) (payloads : List (RuntimeEventPayload ν)) : Prop :=
  t.sessionId = s.sessionId ∧ 0 < t.nextSequence ∧
    ∃ new, t.events = s.events ++ new ∧ new.map (·.payload) = payloads

lemma requireSingleTerminalEvent_payloads (events : List (RuntimeEventEnvelope ν)) :
    requireSingleTerminalEvent events = none ↔
      ((events.map (·.payload)).filter fun payload => payload.type.terminal).length ≤ 1 := by
  unfold requireSingleTerminalEvent
  rw [List.filter_map, List.length_map]
  simp only [Function.comp_def]
  split_ifs with h <;> simp [h]

namespace FakeSessionRecord
variable {r r' : FakeSessionRecord ν} {turnId : Text}

/-- The `session.closed` events in the stream. -/
def closedEvents (r : FakeSessionRecord ν) : ℕ :=
  (r.stream.events.filter fun e => decide (e.payload.type = .sessionClosed)).length

def runningHandles (r : FakeSessionRecord ν) : List MutableTurnHandle :=
  r.handles.filter fun h => decide (h.state = .running)

/-- No turn runs, or one that the session knows as its active turn. -/
inductive Phase (r : FakeSessionRecord ν) : Prop
  | resting (hstate : r.session.state = .idle ∨ r.session.state = .closed) (hactive : r.session.activeTurnId = none)
      (hquiet : ∀ h ∈ r.handles, h.state ≠ .running)
  | active (hstate : r.session.state = .turnActive) (turnId : Text) (i : ℕ) (h : MutableTurnHandle)
      (hactive : r.session.activeTurnId = some turnId) (hid : r.turnsById.get? turnId = some i)
      (hh : r.handles[i]? = some h) (hrunning : h.state = .running)
      (honly : ∀ j k, r.handles[j]? = some k → k.state = .running → j = i)

/-- Before its promise is settled the session has no closing event, after that it has one. -/
def ClosePhase (r : FakeSessionRecord ν) : Prop :=
  match r.closePromise with
  | none => r.session.state ≠ .closed ∧ r.closedEvents = 0
  | some (.waiting cancelled) => cancelled = .ok () ∧ r.session.state ≠ .closed ∧ r.closedEvents = 0
  | some .fulfilled => r.closedEvents = 1
  | some (.rejected _) => False

structure Sound (r : FakeSessionRecord ν) : Prop where
  id : r.session.id ≠ []
  streamId : r.stream.sessionId ≠ []
  nextSequence : 0 < r.stream.nextSequence
  turnIds : ∀ h ∈ r.handles, h.turnId ≠ []
  states : ∀ h ∈ r.handles, h.state = .running ∨ h.state = .cancelled ∨ h.state = .completed
  byId : ∀ t i, r.turnsById.get? t = some i → ∃ h, r.handles[i]? = some h ∧ h.turnId = t
  phase : r.Phase
  close : r.ClosePhase

lemma ClosePhase.congr (h : r.ClosePhase) (hpromise : r'.closePromise = r.closePromise)
    (hevents : r'.closedEvents = r.closedEvents) (hstate : r'.session.state ≠ .closed) : r'.ClosePhase := by
  unfold ClosePhase at h ⊢
  rw [hpromise, hevents]
  cases hp : r.closePromise with
  | none =>
    rw [hp] at h
    exact ⟨hstate,h.2⟩
  | some promise =>
    rw [hp] at h
    cases promise with
    | waiting cancelled => exact ⟨h.1,hstate,h.2.2⟩
    | fulfilled => exact h
    | rejected e => exact h

lemma closedEvents_extends {payloads : List (RuntimeEventPayload ν)} (h : Extends r.stream r'.stream payloads)
    (hpayloads : ∀ p ∈ payloads, p.type ≠ .sessionClosed) : r'.closedEvents = r.closedEvents := by
  obtain ⟨-,-,new,hnew,hmap⟩ := h
  have hnone : new.filter (fun e => decide (e.payload.type = .sessionClosed)) = [] := by
    refine List.filter_eq_nil_iff.mpr fun e he => ?_
    have hp := hpayloads e.payload (by rw [← hmap]; exact List.mem_map_of_mem he)
    simpa using hp
  rw [closedEvents, hnew, List.filter_append, hnone, List.append_nil, closedEvents]

lemma closedEvents_close {r' : FakeSessionRecord ν} (h : Extends r.stream r'.stream [.sessionClosed .logicalClose]) :
    r'.closedEvents = r.closedEvents + 1 := by
  obtain ⟨-,-,new,hnew,hmap⟩ := h
  obtain ⟨e,rfl,he⟩ := List.map_eq_singleton_iff.mp hmap
  rw [closedEvents, hnew, List.filter_append, List.length_append, closedEvents]
  simp [he, RuntimeEventPayload.type]

/-- An active turn is the one that runs. -/
lemma Sound.lifecycle (h : r.Sound) :
    (r.session.activeTurnId.isSome ↔ r.session.state = .turnActive) ∧
      (r.session.state = .turnActive ↔ r.runningHandles.length = 1) := by
  cases h.phase with
  | resting hstate hactive hquiet =>
    have hnone : r.runningHandles = [] := List.filter_eq_nil_iff.mpr fun k hk => by simpa using hquiet k hk
    rcases hstate with hstate | hstate <;> simp [hactive, hstate, hnone]
  | active hstate t i k hactive hid hk hrunning honly =>
    have hsplit : r.handles = r.handles.take i ++ k :: r.handles.drop (i + 1) := by
      obtain ⟨hlt,hget⟩ := List.getElem?_eq_some_iff.mp hk
      rw [← hget, List.cons_getElem_drop_succ, List.take_append_drop]
    have hbefore : ∀ k' ∈ r.handles.take i, k'.state ≠ .running := by
      intro k' hk' hrun
      obtain ⟨j,hj⟩ := List.mem_iff_getElem?.mp hk'
      rw [List.getElem?_take] at hj
      split_ifs at hj with hlt
      have := honly j k' hj hrun
      omega
    have hafter : ∀ k' ∈ r.handles.drop (i + 1), k'.state ≠ .running := by
      intro k' hk' hrun
      obtain ⟨j,hj⟩ := List.mem_iff_getElem?.mp hk'
      rw [List.getElem?_drop] at hj
      have := honly _ k' hj hrun
      omega
    have hone : r.runningHandles = [k] := by
      rw [runningHandles, hsplit, List.filter_append, List.filter_cons_of_pos (by simpa using hrunning),
        List.filter_eq_nil_iff.mpr (fun k' hk' => by simpa using hbefore k' hk'),
        List.filter_eq_nil_iff.mpr (fun k' hk' => by simpa using hafter k' hk'), List.nil_append]
    simp [hactive, hstate, hone]

/-- The running turn `i` has ended in `r'`, and the session is idle. -/
structure Ended (r : FakeSessionRecord ν) (i : ℕ) (r' : FakeSessionRecord ν) : Prop where
  sessionId : r'.session.id = r.session.id
  state : r'.session.state = .idle
  activeTurnId : r'.session.activeTurnId = none
  promise : r'.closePromise = r.closePromise
  events : r'.closedEvents = r.closedEvents
  streamId : r'.stream.sessionId = r.stream.sessionId
  nextSequence : 0 < r'.stream.nextSequence
  byId : r'.turnsById = r.turnsById
  handle : ∃ change : MutableTurnHandle → MutableTurnHandle, r'.handles = r.handles.modify i change ∧
    ∀ h, (change h).turnId = h.turnId ∧ ((change h).state = .cancelled ∨ (change h).state = .completed)

lemma Ended.sound (h : r.Sound) {i : ℕ} {k : MutableTurnHandle} (hk : r.handles[i]? = some k)
    (hrunning : k.state = .running) (he : r.Ended i r') : r'.Sound := by
  obtain ⟨change,hhandles,hchange⟩ := he.handle
  have hget : ∀ j, r'.handles[j]? = (r.handles[j]?).map (if i = j then change else id) := by
    intro j
    rw [hhandles, List.getElem?_modify]
    split_ifs <;> rfl
  have hmem : ∀ h' ∈ r'.handles, ∃ j k', r.handles[j]? = some k' ∧ h' = (if i = j then change else id) k' := by
    intro h' hh'
    obtain ⟨j,hj⟩ := List.mem_iff_getElem?.mp hh'
    rw [hget] at hj
    obtain ⟨k',hk',heq⟩ := Option.map_eq_some_iff.mp hj
    exact ⟨j,k',hk',heq.symm⟩
  have honly : ∀ j k', r.handles[j]? = some k' → k'.state = .running → j = i := by
    cases h.phase with
    | resting _ _ hquiet => exact absurd hrunning (hquiet k (List.mem_of_getElem? hk))
    | active _ t i' k' _ _ _ _ honly =>
      intro j k'' hk'' hrun
      rw [honly j k'' hk'' hrun, honly i k hk hrunning]
  refine ⟨by rw [he.sessionId]; exact h.id,by rw [he.streamId]; exact h.streamId,he.nextSequence,?_,?_,?_,?_,?_⟩
  · intro h' hh'
    obtain ⟨j,k',hk',rfl⟩ := hmem h' hh'
    have hid := h.turnIds k' (List.mem_of_getElem? hk')
    split_ifs
    · rwa [(hchange k').1]
    · exact hid
  · intro h' hh'
    obtain ⟨j,k',hk',rfl⟩ := hmem h' hh'
    split_ifs
    · exact Or.inr (hchange k').2
    · exact h.states k' (List.mem_of_getElem? hk')
  · intro t j hj
    rw [he.byId] at hj
    obtain ⟨k',hk',hid⟩ := h.byId t j hj
    refine ⟨_,by rw [hget, hk', Option.map_some],?_⟩
    split_ifs
    · rw [(hchange k').1, hid]
    · exact hid
  · refine .resting (Or.inl he.state) he.activeTurnId fun h' hh' hrun => ?_
    obtain ⟨j,k',hk',rfl⟩ := hmem h' hh'
    split_ifs at hrun with hij
    · rcases (hchange k').2 with hs | hs <;> rw [hs] at hrun <;> cases hrun
    · exact hij (honly j k' hk' hrun).symm
  · exact h.close.congr he.promise he.events (by rw [he.state]; decide)

end FakeSessionRecord

section Stream
variable [JsNumber ν] {sessionId turnId : Text} {s : FakeEventStream ν}

/-- An event that passes the schema under any sequence number. -/
def Valid (isDatetime : Text → Bool) (e : RuntimeEventEnvelope ν) : Prop :=
  ∀ sequence, 0 < sequence → ({ e with sequence := sequence } : RuntimeEventEnvelope ν).parses isDatetime = true

lemma append_eq (hs : 0 < s.nextSequence) {e : RuntimeEventEnvelope ν} (he : Valid isDatetime e) :
    s.append isDatetime e = some { s with
      events := s.events ++ [{ e with sequence := s.nextSequence }], nextSequence := s.nextSequence + 1 } := by
  have hparses := he s.nextSequence hs
  simp [FakeEventStream.append, createRuntimeEvent, hparses]

lemma Extends.append (hs : 0 < s.nextSequence) {e : RuntimeEventEnvelope ν} (he : Valid isDatetime e) :
    ∃ t, s.append isDatetime e = some t ∧ Extends s t [e.payload] :=
  ⟨_,append_eq hs he,rfl,Nat.succ_pos _,_,rfl,rfl⟩

/-- An event that `createRuntimeEvent` makes first and `append` checks again. -/
lemma Extends.created (hs : 0 < s.nextSequence) {e : RuntimeEventEnvelope ν} (he : Valid isDatetime e)
    (hone : e.sequence = 1) :
    ∃ t, (createRuntimeEvent isDatetime e).bind (s.append isDatetime) = some t ∧ Extends s t [e.payload] := by
  obtain ⟨t,ht,hextends⟩ := Extends.append hs he
  have hparses := he 1 Nat.one_pos
  rw [← hone] at hparses
  refine ⟨t,?_,hextends⟩
  rw [(createRuntimeEvent_eq_some isDatetime).mpr ⟨hparses,rfl⟩]
  exact ht

lemma Extends.appendAll {events : List (RuntimeEventEnvelope ν)} (hs : 0 < s.nextSequence)
    (he : ∀ e ∈ events, Valid isDatetime e) :
    ∃ t, FakeEventStream.appendAll isDatetime events s = (.ok (),t) ∧ Extends s t (events.map (·.payload)) := by
  induction events generalizing s with
  | nil => exact ⟨s,rfl,rfl,hs,[],by simp,rfl⟩
  | cons e events ih =>
    obtain ⟨t,ht,hid,hnext,new,hnew,hpayload⟩ := Extends.append hs (he e List.mem_cons_self)
    obtain ⟨u,hu,hid',hnext',new',hnew',hpayload'⟩ := ih hnext fun e' he' => he e' (List.mem_cons_of_mem e he')
    refine ⟨u,by simp [FakeEventStream.appendAll, ht, hu],hid'.trans hid,hnext',new ++ new',?_,?_⟩
    · rw [hnew', hnew, List.append_assoc]
    · simp [hpayload, hpayload']

lemma fixtureEvent_valid (hsession : sessionId ≠ []) (hturn : turnId ≠ []) (hnow : isDatetime now = true)
    (kind : String) (terminal : Bool) {sequence : ℕ} (hsequence : 0 < sequence) {payload : RuntimeEventPayload ν}
    (hpayload : payload.parses isDatetime = true) :
    ∃ e, fixtureEvent isDatetime now sessionId turnId kind sequence payload terminal = some e ∧
      Valid isDatetime e ∧ e.payload = payload := by
  have hparses : ∀ n, 0 < n → (RuntimeEventEnvelope.mk (fixtureEventId turnId kind sequence) n sessionId
      (some turnId) now payload .metadataOnly terminal).parses isDatetime = true := by
    intro n hn
    simp [RuntimeEventEnvelope.parses, fixtureEventId, optionalNonempty, hsession, hturn, hnow, hn, hpayload]
  refine ⟨⟨fixtureEventId turnId kind sequence,sequence,sessionId,some turnId,now,payload,.metadataOnly,terminal⟩,
    ?_,hparses,rfl⟩
  simp only [fixtureEvent, createRuntimeEvent, if_pos (hparses sequence hsequence)]

/-- The events of a fixture that has one terminal event, as the loop leaves them. -/
lemma Extends.fixture {fixture : List UpstreamFixtureEvent} (hs : 0 < s.nextSequence)
    {normalized : NormalizedFixture ν}
    (hnormal : normalizeOmnigentFixture isDatetime now s.sessionId turnId fixture = some normalized)
    (hvalid : ∀ e ∈ normalized.events, Valid isDatetime e)
    (hsingle : ((normalized.events.map (·.payload)).filter fun payload => payload.type.terminal).length ≤ 1) :
    ∃ t, s.appendFixture isDatetime now fixture turnId = (.ok (),t) ∧
      Extends s t (normalized.events.map (·.payload)) := by
  obtain ⟨t,ht,hextends⟩ := Extends.appendAll hs hvalid
  obtain ⟨new,hnew,hpayloads⟩ := hextends.2.2
  have hdrop : t.events.drop s.events.length = new := by rw [hnew, List.drop_left]
  have hnone : requireSingleTerminalEvent (t.events.drop s.events.length) = none := by
    rw [requireSingleTerminalEvent_payloads, hdrop, hpayloads]
    exact hsingle
  refine ⟨t,?_,hextends⟩
  simp only [FakeEventStream.appendFixture, hnormal, ht, hnone]

lemma userInterrupt_parses :
    (RuntimeEventPayload.turnCancelled (ν := ν) (some (Text.of "user_interrupt"))).parses isDatetime = true :=
  show optionalNonempty (some (Text.of "user_interrupt")) = true by decide

lemma turnStart_parses : (RuntimeEventPayload.turnStarted (ν := ν) (Text.of "Normalized upstream turn start.")
    .running).parses isDatetime = true := rfl

lemma delta_parses : (RuntimeEventPayload.textDelta (ν := ν) (Text.of "normalized delta")).parses isDatetime = true := rfl

lemma completion_parses :
    (RuntimeEventPayload.turnCompleted (ν := ν) (some (Text.of "Normalized upstream completion."))).parses isDatetime =
      true :=
  show optionalNonempty (some (Text.of "Normalized upstream completion.")) = true by decide

lemma cancelFixture_extends (hs : 0 < s.nextSequence) (hsession : s.sessionId ≠ []) (hturn : turnId ≠ [])
    (hnow : isDatetime now = true) :
    ∃ t payloads, s.appendFixture isDatetime now cancelTerminalFixture turnId = (.ok (),t) ∧ Extends s t payloads ∧
      ∀ p ∈ payloads, p.type ≠ .sessionClosed := by
  obtain ⟨e,he,hvalid,hpayload⟩ := fixtureEvent_valid hsession hturn hnow "terminal-cancelled" true
    (show 0 < 1 by decide) (userInterrupt_parses (ν := ν))
  have hnormal : normalizeOmnigentFixture isDatetime now s.sessionId turnId cancelTerminalFixture =
      some { events := [e], sequence := 2, terminalEmitted := true } := by
    simp [normalizeOmnigentFixture, cancelTerminalFixture, normalizeFixtureEvent, terminalEventFromUpstream, he,
      NormalizedFixture.push]
  obtain ⟨t,ht,hextends⟩ := Extends.fixture hs hnormal (by simpa using hvalid)
    (by simp [hpayload, RuntimeEventPayload.type, RuntimeEventType.terminal])
  exact ⟨t,_,ht,hextends,by simp [hpayload, RuntimeEventPayload.type]⟩

lemma normalFixture_extends (hs : 0 < s.nextSequence) (hsession : s.sessionId ≠ []) (hturn : turnId ≠ [])
    (hnow : isDatetime now = true) :
    ∃ t payloads, s.appendFixture isDatetime now normalTerminalFixture turnId = (.ok (),t) ∧ Extends s t payloads ∧
      ∀ p ∈ payloads, p.type ≠ .sessionClosed := by
  obtain ⟨e₁,he₁,hvalid₁,hpayload₁⟩ := fixtureEvent_valid (ν := ν) hsession hturn hnow "started" false
    (show 0 < 1 by decide) (turnStart_parses (ν := ν))
  obtain ⟨e₂,he₂,hvalid₂,hpayload₂⟩ := fixtureEvent_valid (ν := ν) hsession hturn hnow "delta" false
    (show 0 < 2 by decide) (delta_parses (ν := ν))
  obtain ⟨e₃,he₃,hvalid₃,hpayload₃⟩ := fixtureEvent_valid hsession hturn hnow "terminal-completed" true
    (show 0 < 3 by decide) (completion_parses (ν := ν))
  obtain ⟨e₄,he₄,-,-⟩ := fixtureEvent_valid hsession hturn hnow "terminal-completed" true
    (show 0 < 4 by decide) (completion_parses (ν := ν))
  have hnormal : normalizeOmnigentFixture isDatetime now s.sessionId turnId normalTerminalFixture =
      some { events := [e₁,e₂,e₃], sequence := 4, terminalEmitted := true, startedEmitted := true } := by
    simp [normalizeOmnigentFixture, normalTerminalFixture, normalizeFixtureEvent, terminalEventFromUpstream, he₁, he₂,
      he₃, he₄, NormalizedFixture.push]
  obtain ⟨t,ht,hextends⟩ := Extends.fixture hs hnormal
    (by simpa using ⟨hvalid₁,hvalid₂,hvalid₃⟩)
    (by simp [hpayload₁, hpayload₂, hpayload₃, RuntimeEventPayload.type, RuntimeEventType.terminal])
  exact ⟨t,_,ht,hextends,by simp [hpayload₁, hpayload₂, hpayload₃, RuntimeEventPayload.type]⟩

end Stream

namespace FakeSessionRecord
variable {r : FakeSessionRecord ν} {turnId : Text} {i : ℕ} {k : MutableTurnHandle}

lemma Sound.turnActive_of_running (h : r.Sound) (hk : r.handles[i]? = some k) (hrunning : k.state = .running) :
    r.session.state = .turnActive := by
  cases h.phase with
  | resting _ _ hquiet => exact absurd hrunning (hquiet k (List.mem_of_getElem? hk))
  | active hstate => exact hstate

/-- The session after `endTurn`. -/
def endedRecord (now : Text) (r : FakeSessionRecord ν) (i : ℕ) (state : TurnState) : FakeSessionRecord ν :=
  { r.changeHandle i (fun h => { h with state := state, updatedAt := now, eventCursor := r.stream.lastSequence }) with
    session := { r.session with
      state := .idle, activeTurnId := none, updatedAt := now, eventCursor := r.stream.lastSequence } }

lemma endTurn_eq (hstate : r.session.state = .turnActive) (state : TurnState) :
    endTurn now r i state = (.ok i,endedRecord now r i state) := by
  have hidle : applySessionTransition (ν := ν) r.session.state .idle = .ok .idle := by rw [hstate]; rfl
  simp only [endTurn, changeHandle, hidle]
  rfl

/-- The turn has ended once its handle has changed, the stream has grown and `endTurn` has come by. -/
lemma ended_endedRecord (now : Text) {change : MutableTurnHandle → MutableTurnHandle} (hchange : ∀ h, (change h).turnId = h.turnId)
    {stream : FakeEventStream ν} {payloads : List (RuntimeEventPayload ν)} (hstream : Extends r.stream stream payloads)
    (hpayloads : ∀ p ∈ payloads, p.type ≠ .sessionClosed) {state : TurnState}
    (hend : state = .cancelled ∨ state = .completed) :
    r.Ended i (endedRecord now { r.changeHandle i change with stream := stream } i state) where
  sessionId := rfl
  state := rfl
  activeTurnId := rfl
  promise := rfl
  events := closedEvents_extends hstream hpayloads
  streamId := hstream.1
  nextSequence := hstream.2.1
  byId := rfl
  handle := ⟨_,List.modify_modify_eq _ _ _ _,fun h => ⟨hchange h,hend⟩⟩

lemma Sound.turnId_ne_nil (h : r.Sound) (hid : r.turnsById.get? turnId = some i) : turnId ≠ [] := by
  obtain ⟨k,hk,rfl⟩ := h.byId turnId i hid
  exact h.turnIds k (List.mem_of_getElem? hk)

/-- What a call may do to a session: keep it well formed, and leave a closed one as it is. -/
structure Follows (r r' : FakeSessionRecord ν) : Prop where
  sound : r'.Sound
  sessionId : r'.session.id = r.session.id
  closed : r.session.state = .closed → r' = r

lemma Sound.follows_self (h : r.Sound) : r.Follows r := ⟨h,rfl,fun _ => rfl⟩

lemma Sound.follows_ended (h : r.Sound) (hk : r.handles[i]? = some k) (hrunning : k.state = .running)
    {r' : FakeSessionRecord ν} (he : r.Ended i r') : r.Follows r' where
  sound := he.sound h hk hrunning
  sessionId := he.sessionId
  closed hclosed := by rw [h.turnActive_of_running hk hrunning] at hclosed; cases hclosed

/-- A turn starts in `r'`: an idle session has become active with a new running handle. -/
structure Started (r r' : FakeSessionRecord ν) : Prop where
  idle : r.session.state = .idle
  sessionId : r'.session.id = r.session.id
  state : r'.session.state = .turnActive
  promise : r'.closePromise = r.closePromise
  events : r'.closedEvents = r.closedEvents
  streamId : r'.stream.sessionId = r.stream.sessionId
  nextSequence : 0 < r'.stream.nextSequence
  handle : ∃ k, k.state = .running ∧ k.turnId ≠ [] ∧ r'.handles = r.handles ++ [k] ∧
    r'.session.activeTurnId = some k.turnId ∧ r'.turnsById = r.turnsById.set k.turnId r.handles.length

lemma Started.follows (h : r.Sound) {r' : FakeSessionRecord ν} (hs : r.Started r') : r.Follows r' := by
  obtain ⟨k,hrunning,hk,hhandles,hactive,hbyId⟩ := hs.handle
  have hquiet : ∀ h ∈ r.handles, h.state ≠ .running := by
    cases h.phase with
    | resting _ _ hquiet => exact hquiet
    | active hstate => rw [hs.idle] at hstate; cases hstate
  have hlast : r'.handles[r.handles.length]? = some k := by simp [hhandles]
  refine ⟨?_,hs.sessionId,fun hclosed => by rw [hs.idle] at hclosed; cases hclosed⟩
  refine ⟨by rw [hs.sessionId]; exact h.id,by rw [hs.streamId]; exact h.streamId,hs.nextSequence,?_,?_,?_,?_,?_⟩
  · intro h' hh'
    rw [hhandles, List.mem_append, List.mem_singleton] at hh'
    rcases hh' with hh' | rfl
    · exact h.turnIds h' hh'
    · exact hk
  · intro h' hh'
    rw [hhandles, List.mem_append, List.mem_singleton] at hh'
    rcases hh' with hh' | rfl
    · exact h.states h' hh'
    · exact Or.inl hrunning
  · intro t j hj
    rw [hbyId, Dictionary.get?_set] at hj
    split_ifs at hj with ht
    · cases hj
      exact ⟨k,hlast,ht.symm⟩
    · obtain ⟨k',hk',hid⟩ := h.byId t j hj
      refine ⟨k',?_,hid⟩
      rw [hhandles, List.getElem?_append_left (List.getElem?_eq_some_iff.mp hk').1, hk']
  · refine .active hs.state k.turnId r.handles.length k hactive (by rw [hbyId, Dictionary.get?_set_self]) hlast hrunning ?_
    intro j k' hk' hrun
    rw [hhandles, List.getElem?_append] at hk'
    split_ifs at hk' with hlt
    · exact absurd hrun (hquiet k' (List.mem_of_getElem? hk'))
    · obtain ⟨hlt',-⟩ := List.getElem?_eq_some_iff.mp hk'
      rw [List.length_singleton] at hlt'
      omega
  · exact h.close.congr hs.promise hs.events (by rw [hs.state]; decide)

section Turns
variable [JsNumber ν]

lemma cancelTurn_running (h : r.Sound) (hnow : isDatetime now = true) (hid : r.turnsById.get? turnId = some i)
    (hk : r.handles[i]? = some k) (hrunning : k.state = .running) :
    ∃ r', r.cancelTurn isDatetime now turnId = (.ok i,r') ∧ r.Ended i r' := by
  obtain ⟨stream,payloads,hfixture,hstream,hpayloads⟩ :=
    cancelFixture_extends h.nextSequence h.streamId (h.turnId_ne_nil hid) hnow
  have hcancelling : applyTurnTransition (ν := ν) k.state .cancelling = .ok .cancelling := by rw [hrunning]; rfl
  have hchange : ∀ h : MutableTurnHandle, ({ h with state := .cancelling } : MutableTurnHandle).turnId = h.turnId :=
    fun _ => rfl
  refine ⟨_,?_,ended_endedRecord now hchange hstream hpayloads (Or.inl rfl)⟩
  simp only [cancelTurn, hid, Option.bind_some, hk, Option.map_some, hcancelling]
  rw [if_neg (by rw [hrunning]; decide), show (r.changeHandle i _).stream = r.stream from rfl, hfixture]
  dsimp only
  refine endTurn_eq ?_ .cancelled
  exact h.turnActive_of_running hk hrunning

lemma completeTurn_running (h : r.Sound) (hnow : isDatetime now = true) (hid : r.turnsById.get? turnId = some i)
    (hk : r.handles[i]? = some k) (hrunning : k.state = .running) :
    ∃ r', r.completeTurn isDatetime now turnId = (.ok i,r') ∧ r.Ended i r' := by
  obtain ⟨stream,payloads,hfixture,hstream,hpayloads⟩ :=
    normalFixture_extends h.nextSequence h.streamId (h.turnId_ne_nil hid) hnow
  have hcompleted : applyTurnTransition (ν := ν) k.state .completed = .ok .completed := by rw [hrunning]; rfl
  have hsame : r.changeHandle i id = r := by simp [changeHandle, List.modify_id]
  have hchange : ∀ h : MutableTurnHandle, (id h).turnId = h.turnId := fun _ => rfl
  have hended := ended_endedRecord (r := r) (i := i) now hchange hstream hpayloads (Or.inr rfl)
  rw [hsame] at hended
  refine ⟨_,?_,hended⟩
  simp only [completeTurn, hid, Option.bind_some, hk, Option.map_some, hcompleted]
  rw [if_neg (by rw [hrunning]; decide), hfixture]
  dsimp only
  refine endTurn_eq ?_ .completed
  exact h.turnActive_of_running hk hrunning

theorem cancelTurn_follows (h : r.Sound) (hnow : isDatetime now = true) (turnId : Text) :
    r.Follows (r.cancelTurn isDatetime now turnId).2 ∧
      (r.cancelTurn isDatetime now turnId).2.closePromise = r.closePromise := by
  cases hid : r.turnsById.get? turnId with
  | none =>
    simp only [cancelTurn, hid, Option.bind_none]
    exact ⟨h.follows_self,trivial⟩
  | some i =>
    obtain ⟨k,hk,-⟩ := h.byId turnId i hid
    rcases h.states k (List.mem_of_getElem? hk) with hs | hs | hs
    · obtain ⟨r',heq,hended⟩ := cancelTurn_running h hnow hid hk hs
      rw [heq]
      exact ⟨h.follows_ended hk hs hended,hended.promise⟩
    · simp only [cancelTurn, hid, Option.bind_some, hk, Option.map_some, hs, if_true]
      exact ⟨h.follows_self,trivial⟩
    · have hrefused : applyTurnTransition (ν := ν) .completed .cancelling =
          .error (invalidTransition "turn" "completed" "cancelling" .turn) := rfl
      simp only [cancelTurn, hid, Option.bind_some, hk, Option.map_some, hs, hrefused, reduceCtorEq, if_false]
      exact ⟨h.follows_self,trivial⟩

theorem completeTurn_follows (h : r.Sound) (hnow : isDatetime now = true) (turnId : Text) :
    r.Follows (r.completeTurn isDatetime now turnId).2 ∧
      (r.completeTurn isDatetime now turnId).2.closePromise = r.closePromise := by
  cases hid : r.turnsById.get? turnId with
  | none =>
    simp only [completeTurn, hid, Option.bind_none]
    exact ⟨h.follows_self,trivial⟩
  | some i =>
    obtain ⟨k,hk,-⟩ := h.byId turnId i hid
    rcases h.states k (List.mem_of_getElem? hk) with hs | hs | hs
    · obtain ⟨r',heq,hended⟩ := completeTurn_running h hnow hid hk hs
      rw [heq]
      exact ⟨h.follows_ended hk hs hended,hended.promise⟩
    · have hrefused : applyTurnTransition (ν := ν) .cancelled .completed =
          .error (invalidTransition "turn" "cancelled" "completed" .turn) := rfl
      simp only [completeTurn, hid, Option.bind_some, hk, Option.map_some, hs, hrefused, reduceCtorEq, if_false]
      exact ⟨h.follows_self,trivial⟩
    · simp only [completeTurn, hid, Option.bind_some, hk, Option.map_some, hs, if_true]
      exact ⟨h.follows_self,trivial⟩

end Turns

section Sending
variable [JsNumber ν] {request : SendTurnRequest}

lemma startedEvent_valid (hnow : isDatetime now = true) (hrequest : request.parses = true) (hturn : turnId ≠ []) :
    Valid isDatetime (startedEvent (ν := ν) now request turnId) := by
  simp only [SendTurnRequest.parses, Bool.and_eq_true, Bool.not_eq_true', List.isEmpty_eq_false_iff] at hrequest
  intro sequence hsequence
  simp [RuntimeEventEnvelope.parses, startedEvent, optionalNonempty, hturn, hnow, hsequence, hrequest.1.1,
    RuntimeEventPayload.parses]

lemma modify_concat {α : Type} (l : List α) (a : α) (change : α → α) :
    (l ++ [a]).modify l.length change = l ++ [change a] := by
  induction l with
  | nil => rfl
  | cons b l ih => simpa using ih

/-- `sendTurn` gives back what there is, refuses, or starts a turn. -/
lemma sendTurn_cases (h : r.Sound) (hnow : isDatetime now = true) (hrequest : request.parses = true) :
    (r.sendTurn isDatetime now request).2 = r ∨ r.Started (r.sendTurn isDatetime now request).2 := by
  unfold sendTurn
  cases hkey : r.turnsByKey.get? request.idempotencyKey with
  | some existing => exact Or.inl rfl
  | none =>
    dsimp only
    split_ifs with hactive
    · exact Or.inl rfl
    · cases h.phase with
      | active hstate t i k ht hid =>
        refine absurd ?_ hactive
        rw [ht, Option.isSome_iff_exists]
        exact ⟨t,Text.truthy_eq_some.mpr ⟨rfl,h.turnId_ne_nil hid⟩⟩
      | resting hstate hnone hquiet =>
        rcases hstate with hstate | hstate
        · have hstart : applySessionTransition (ν := ν) r.session.state .turnActive = .ok .turnActive := by
            rw [hstate]; rfl
          have hturn : request.turnId.getD (Text.of "turn-" ++ request.idempotencyKey) ≠ [] := by
            simp only [SendTurnRequest.parses, Bool.and_eq_true, optionalNonempty] at hrequest
            cases hid : request.turnId with
            | none => simp [Text.of, Text.ofChar]
            | some t => simpa [hid] using hrequest.1.2
          have hvalid := startedEvent_valid (ν := ν) hnow hrequest hturn
          obtain ⟨stream,hcreated,hstream⟩ := Extends.created h.nextSequence hvalid rfl
          rw [hstart]
          dsimp only
          rw [hcreated]
          right
          refine ⟨hstate,rfl,rfl,rfl,closedEvents_extends hstream ?_,hstream.1,hstream.2.1,_,?_,?_,
            modify_concat _ _ _,rfl,rfl⟩
          · simp [startedEvent, RuntimeEventPayload.type]
          · rfl
          · exact hturn
        · have hrefused : applySessionTransition (ν := ν) r.session.state .turnActive =
              .error (invalidTransition "session" "closed" "turn_active" .session) := by rw [hstate]; rfl
          rw [hrefused]
          exact Or.inl rfl

theorem sendTurn_follows (h : r.Sound) (hnow : isDatetime now = true) (hrequest : request.parses = true) :
    r.Follows (r.sendTurn isDatetime now request).2 ∧
      (r.sendTurn isDatetime now request).2.closePromise = r.closePromise := by
  rcases sendTurn_cases h hnow hrequest with heq | hs
  · rw [heq]
    exact ⟨h.follows_self,rfl⟩
  · exact ⟨hs.follows h,hs.promise⟩

end Sending

section Closing
variable [JsNumber ν]

lemma finishClose_eq (h : r.Sound) (hnow : isDatetime now = true) {state : AgentSessionState}
    (hstate : sessionStateAfterClose (ν := ν) r.session.state = .ok state) :
    ∃ stream, Extends r.stream stream [.sessionClosed .logicalClose] ∧
      finishClose isDatetime now r = { r with
        stream := stream
        session := { r.session with state := state, updatedAt := now, eventCursor := stream.lastSequence }
        closePromise := some .fulfilled } := by
  have hvalid : Valid isDatetime (closedEvent (ν := ν) now { r with
      session := { r.session with state := state, updatedAt := now } }) := by
    intro sequence hsequence
    simp [RuntimeEventEnvelope.parses, closedEvent, optionalNonempty, h.id, hnow, hsequence, RuntimeEventPayload.parses]
  obtain ⟨stream,happend,hstream⟩ := Extends.append h.nextSequence hvalid
  refine ⟨stream,hstream,?_⟩
  unfold finishClose
  rw [hstate]
  dsimp only
  rw [happend]

/-- What is left of `closeSession` settles its promise, and closes the session exactly if no turn is active. -/
lemma finishClose_spec (h : r.Sound) (hnow : isDatetime now = true) (hopen : r.session.state ≠ .closed)
    (hnone : r.closedEvents = 0) :
    r.Follows (finishClose isDatetime now r) ∧ (finishClose isDatetime now r).closePromise = some .fulfilled ∧
      (r.session.activeTurnId = none ↔ (finishClose isDatetime now r).session.state = .closed) := by
  have hclosed : ∀ r' : FakeSessionRecord ν, r'.closePromise = some .fulfilled →
      Extends r.stream r'.stream [.sessionClosed .logicalClose] → r'.ClosePhase := by
    intro r' hpromise hstream
    unfold ClosePhase
    rw [hpromise]
    dsimp only
    rw [closedEvents_close hstream, hnone]
  cases h.phase with
  | resting hstate hactive hquiet =>
    have hidle : r.session.state = .idle := hstate.resolve_right hopen
    have hafter : sessionStateAfterClose (ν := ν) r.session.state = .ok .closed := by rw [hidle]; rfl
    obtain ⟨stream,hstream,heq⟩ := finishClose_eq h hnow hafter
    rw [heq]
    refine ⟨⟨⟨h.id,?_,hstream.2.1,h.turnIds,h.states,h.byId,?_,hclosed _ rfl hstream⟩,rfl,fun hc => absurd hc hopen⟩,
      rfl,fun _ => rfl,fun _ => hactive⟩
    · exact hstream.1 ▸ h.streamId
    · exact .resting (Or.inr rfl) hactive hquiet
  | active hstate turnId i k hactive hid hk hrunning honly =>
    have hafter : sessionStateAfterClose (ν := ν) r.session.state = .ok .turnActive := by rw [hstate]; rfl
    obtain ⟨stream,hstream,heq⟩ := finishClose_eq h hnow hafter
    rw [heq]
    refine ⟨⟨⟨h.id,?_,hstream.2.1,h.turnIds,h.states,h.byId,?_,hclosed _ rfl hstream⟩,rfl,fun hc => absurd hc hopen⟩,
      rfl,fun hn => ?_,fun hc => by cases hc⟩
    · exact hstream.1 ▸ h.streamId
    · exact .active rfl turnId i k hactive hid hk hrunning honly
    · rw [hactive] at hn
      cases hn

/-- A promise that the call settles comes with a closed session. -/
theorem closeSession_follows (h : r.Sound) (hnow : isDatetime now = true) :
    r.Follows (closeSession isDatetime now r) ∧
      ((closeSession isDatetime now r).closePromise = some .fulfilled →
        r.closePromise = some .fulfilled ∨ (closeSession isDatetime now r).session.state = .closed) := by
  unfold closeSession
  split_ifs with hclosed hpromise
  · exact ⟨h.follows_self,Or.inl⟩
  · exact ⟨h.follows_self,Or.inl⟩
  · have hpending : r.closePromise = none := Option.not_isSome_iff_eq_none.mp hpromise
    have hnone : r.closedEvents = 0 := by
      have := h.close
      unfold ClosePhase at this
      rw [hpending] at this
      exact this.2
    cases hphase : h.phase with
    | resting hstate hactive hquiet =>
      rw [hactive]
      obtain ⟨hfollows,-,hdone⟩ := finishClose_spec h hnow hclosed hnone
      exact ⟨hfollows,fun _ => Or.inr (hdone.mp hactive)⟩
    | active hstate turnId i k hactive hid hk hrunning honly =>
      have htruthy : Text.truthy r.session.activeTurnId = some turnId :=
        Text.truthy_eq_some.mpr ⟨hactive,h.turnId_ne_nil hid⟩
      rw [htruthy, Option.bind_some, hid, Option.bind_some, hk]
      dsimp only
      obtain ⟨k',hk',hname⟩ := h.byId turnId i hid
      obtain rfl : k' = k := Option.some.inj (hk'.symm.trans hk)
      obtain ⟨r',heq,hended⟩ := cancelTurn_running h hnow (hname ▸ hid) hk hrunning
      rw [heq]
      have hr' := hended.sound h hk hrunning
      refine ⟨⟨⟨hr'.id,hr'.streamId,hr'.nextSequence,hr'.turnIds,hr'.states,hr'.byId,?_,?_⟩,hended.sessionId,
        fun hc => absurd hc hclosed⟩,fun hf => by cases hf⟩
      · cases hr'.phase with
        | resting hs ha hq => exact .resting hs ha hq
        | active hs t i k ha hi hk hr ho => exact .active hs t i k ha hi hk hr ho
      · refine ⟨rfl,?_,?_⟩
        · show r'.session.state ≠ .closed
          rw [hended.state]
          decide
        · exact hended.events.trans hnone

/-- However it finds the session, the close is fulfilled; it has closed the session exactly if no turn is active. -/
theorem resumeClose_follows (h : r.Sound) (hnow : isDatetime now = true) {cancelled : Except (FakeError ν) Unit}
    (hwaiting : r.closePromise = some (.waiting cancelled)) :
    r.Follows (r.resumeClose isDatetime now cancelled) ∧
      (r.resumeClose isDatetime now cancelled).closePromise = some .fulfilled ∧
      (r.session.activeTurnId = none ↔ (r.resumeClose isDatetime now cancelled).session.state = .closed) := by
  have hclose := h.close
  unfold ClosePhase at hclose
  rw [hwaiting] at hclose
  obtain ⟨rfl,hopen,hnone⟩ := hclose
  exact finishClose_spec h hnow hopen hnone

end Closing
end FakeSessionRecord
end OmniagentPlus.CoreContracts.FakeRuntime
