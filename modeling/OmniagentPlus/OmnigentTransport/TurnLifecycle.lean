import OmniagentPlus.OmnigentTransport.HistoryMapper
import OmniagentPlus.Foundation.Emission

/-! Turn lifecycles over history and live stream: what marks a turn or a tool call comes once,
and not again after the history that seeds the mapper. -/
namespace OmniagentPlus.OmnigentTransport
open OmniagentPlus.Foundation OmniagentPlus.CoreContracts

/-- What may come once: a turn's start and end, a tool's call and result. -/
inductive LifecycleKey
  | started (turnId : Text)
  | terminal (turnId : Text)
  | toolCall (toolCallId : Text)
  | toolResult (toolCallId : Text)
  deriving DecidableEq, Repr

section Keys
variable {ν : Type}

def lifecycleKey (turnId : Option Text) : RuntimeEventPayload ν → Option LifecycleKey
  | .sessionCreated _ _ => none
  | .turnStarted _ _ => turnId.map .started
  | .textDelta _ => none
  | .toolCall toolCall => some (.toolCall toolCall.toolCallId)
  | .toolResult toolCallId _ => some (.toolResult toolCallId)
  | .turnCompleted _ | .turnFailed _ | .turnCancelled _ | .turnTimedOut => turnId.map .terminal
  | .sessionClosed _ => none

def eventKey (e : RuntimeEventEnvelope ν) : Option LifecycleKey := lifecycleKey e.turnId e.payload

/-- Every event of a turn comes after one that starts the turn. -/
def StartedFirst (events : List (RuntimeEventEnvelope ν)) : Prop :=
  ∀ before e after turnId, events = before ++ e :: after → e.turnId = some turnId →
    eventKey e ≠ some (.started turnId) → ∃ s ∈ before, eventKey s = some (.started turnId)

/-- The mapped history and the live events after it. -/
structure LifecycleUnique (history live : List (RuntimeEventEnvelope ν)) (startingSequence : ℕ) : Prop where
  liveNumbered : live.map (·.sequence) = List.range' startingSequence live.length
  liveOnce : (live.filterMap eventKey).Nodup
  liveFresh : ∀ k ∈ live.filterMap eventKey, k ∉ history.filterMap eventKey
  historyNumbered : history.map (·.sequence) = List.range' 1 history.length
  historyStartedFirst : StartedFirst history
  historyStartedOnce : ∀ turnId, (history.filterMap eventKey).count (.started turnId) ≤ 1

/-- The keys that the mapper will not emit. -/
def LifecycleKey.EmittedBy (m : OmnigentEventMapper) : LifecycleKey → Prop
  | started turnId => turnId ∈ m.emittedStartedTurnIds
  | terminal turnId => turnId ∈ m.emittedTerminalTurnIds
  | toolCall toolCallId => toolCallId ∈ m.emittedToolCallIds
  | toolResult toolCallId => toolCallId ∈ m.emittedToolResultIds

end Keys

namespace OmnigentEventMapper

def emitted (m : OmnigentEventMapper) : Set LifecycleKey := {k | k.EmittedBy m}

section Steps
variable {ν : Type} [JsNumber ν] {isDatetime : Text → Bool}

/-- A call of `map`, which delivers nothing where it throws. -/
def deliver (isDatetime : Text → Bool) (m : OmnigentEventMapper) (rawEvent : OmnigentRawEvent ν) :
    OmnigentEventMapper × List (RuntimeEventEnvelope ν) :=
  ((m.map isDatetime rawEvent).1,(m.map isDatetime rawEvent).2.getD [])

/-- The step from one mapper to another emits no key twice and counts what it emits. -/
structure Emits (m m' : OmnigentEventMapper) (out : List (RuntimeEventEnvelope ν)) : Prop where
  once : EmitsOnce eventKey emitted m m' out
  numbered : EmitsNumbered (·.sequence) nextSequence m m' out

/-- The outcome of a call that starts at `m`. -/
def Delivers (m : OmnigentEventMapper) (r : MapOutcome ν) : Prop := Emits m r.1 (r.2.getD [])

/-- Nothing that counts or marks is different. -/
structure SameMarks (m m' : OmnigentEventMapper) : Prop where
  emitted : m'.emitted = m.emitted
  next : m'.nextSequence = m.nextSequence

omit [JsNumber ν] in
lemma delivers_nothing {m m' : OmnigentEventMapper} {out : Option (List (RuntimeEventEnvelope ν))}
    (hmarks : m.emitted ⊆ m'.emitted) (hnext : m'.nextSequence = m.nextSequence) (hout : out.getD [] = []) :
    Delivers m (m',out) := by
  constructor
  · change EmitsOnce eventKey OmnigentEventMapper.emitted m m' (out.getD [])
    rw [hout]
    exact EmitsOnce.nil hmarks
  · change EmitsNumbered (·.sequence) nextSequence m m' (out.getD [])
    rw [hout]
    exact EmitsNumbered.nil hnext

omit [JsNumber ν] in
lemma delivers_ignore {m m' : OmnigentEventMapper} (hmarks : m.emitted ⊆ m'.emitted)
    (hnext : m'.nextSequence = m.nextSequence) : Delivers (ν := ν) m m'.ignore :=
  delivers_nothing hmarks hnext rfl

omit [JsNumber ν] in
/-- One event with the next number, whose key is marked now and was not before. -/
lemma emits_one {m m' : OmnigentEventMapper} {e : RuntimeEventEnvelope ν} (hmarks : m.emitted ⊆ m'.emitted)
    (hsequence : e.sequence = m.nextSequence) (hnext : m'.nextSequence = m.nextSequence + 1)
    (hkey : ∀ k, eventKey e = some k → k ∉ m.emitted ∧ k ∈ m'.emitted) : Emits m m' [e] where
  once := by
    refine ⟨hmarks,?_,?_,?_⟩
    · cases h : eventKey e <;> simp [h]
    · intro k hk
      exact (hkey k (by simpa using hk)).1
    · intro k hk
      exact (hkey k (by simpa using hk)).2
  numbered := ⟨hnext,by simp [hsequence]⟩

/-- An event may be created where its key is marked now and was not before. -/
lemma delivers_createEvent {m m' : OmnigentEventMapper} {d : EventDraft ν} (hmarks : m.emitted ⊆ m'.emitted)
    (hnext : m'.nextSequence = m.nextSequence)
    (hkey : ∀ k, lifecycleKey d.turnId d.payload = some k → k ∉ m.emitted ∧ k ∈ m'.emitted) :
    Delivers m (m'.createEvent isDatetime d) := by
  cases hc : createRuntimeEvent isDatetime
    ⟨d.eventId,m'.nextSequence,m'.sessionId,d.turnId,d.occurredAt,d.payload,.metadataOnly,d.terminal⟩ with
  | none =>
    simp only [createEvent, hc]
    exact delivers_nothing hmarks hnext rfl
  | some created =>
    obtain ⟨-,hcreated⟩ := (createRuntimeEvent_eq_some isDatetime).mp hc
    simp only [createEvent, hc]
    subst hcreated
    exact emits_one hmarks hnext (congrArg (· + 1) hnext) hkey

/-- An event without a key may be created at any time. -/
lemma delivers_text {m m' : OmnigentEventMapper} {d : EventDraft ν} (h : SameMarks m m')
    (hkey : lifecycleKey d.turnId d.payload = none) : Delivers m (m'.createEvent isDatetime d) := by
  apply delivers_createEvent h.emitted.ge h.next
  intro k hk
  rw [hkey] at hk
  cases hk

omit [JsNumber ν] in
lemma delivers_same {m m' : OmnigentEventMapper} (h : SameMarks m m') : Delivers (ν := ν) m m'.ignore :=
  delivers_ignore h.emitted.ge h.next

omit [JsNumber ν] in
lemma Delivers.of_same {m m' : OmnigentEventMapper} {r : MapOutcome ν} (h : SameMarks m m') (hr : Delivers m' r) :
    Delivers m r :=
  ⟨(EmitsOnce.nil h.emitted.ge).trans hr.once,(EmitsNumbered.nil h.next).trans hr.numbered⟩

lemma SameMarks.trans {m m' m'' : OmnigentEventMapper} (h : SameMarks m m') (h' : SameMarks m' m'') :
    SameMarks m m'' := ⟨h'.emitted.trans h.emitted,h'.next.trans h.next⟩

omit [JsNumber ν] in
lemma claimHistoricalMessage_marks (m : OmnigentEventMapper) (rawEvent : OmnigentRawEvent ν) (messageId delta : Text) :
    SameMarks m (m.claimHistoricalMessage rawEvent messageId delta).1 := by
  unfold claimHistoricalMessage
  split
  · exact ⟨rfl,rfl⟩
  · dsimp only
    split
    · exact ⟨rfl,rfl⟩
    · split <;> exact ⟨rfl,rfl⟩

lemma forgetHistoricalText_marks (m : OmnigentEventMapper) (messageId delta remaining : Text) :
    SameMarks m (m.forgetHistoricalText messageId delta remaining).1 := by
  unfold forgetHistoricalText
  dsimp only
  split <;> exact ⟨rfl,rfl⟩

lemma dropHistoricalText_marks (m : OmnigentEventMapper) (messageId delta : Text) (remaining : Option Text) :
    SameMarks m (m.dropHistoricalText messageId delta remaining).1 := by
  unfold dropHistoricalText
  split
  · exact ⟨rfl,rfl⟩
  · split
    · exact ⟨rfl,rfl⟩
    · split
      · split
        · exact ⟨rfl,rfl⟩
        · exact forgetHistoricalText_marks m messageId delta _
      · exact forgetHistoricalText_marks m messageId delta _

lemma recordText_marks (m : OmnigentEventMapper) (messageId turnId : Option Text) (delta : Text) :
    SameMarks m (m.recordText messageId turnId delta) := by
  cases messageId with
  | none => cases turnId <;> exact ⟨rfl,rfl⟩
  | some messageId =>
    cases turnId with
    | none => exact ⟨rfl,rfl⟩
    | some turnId =>
      by_cases h : messageId ∈ (m.pendingMessageIdsByTurnId.get? turnId).getD []
      · rw [recordText, if_pos h]
        exact ⟨rfl,rfl⟩
      · rw [recordText, if_neg h]
        exact ⟨rfl,rfl⟩

lemma mapTextDelta_delivers (m : OmnigentEventMapper) (rawEvent : OmnigentRawEvent ν) :
    Delivers m (m.mapTextDelta isDatetime rawEvent) := by
  have hshown : ∀ (m' : OmnigentEventMapper) (delta : Text), SameMarks m m' → Delivers (ν := ν) m
      ((m'.recordText (Text.truthy rawEvent.message_id) (Text.truthy rawEvent.turnId) delta).createEvent isDatetime
        ⟨rawEvent.id,rawEvent.occurredAt,.textDelta delta,false,rawEvent.turnId⟩) := by
    intro m' delta h
    exact delivers_text (h.trans (recordText_marks m' _ _ delta)) rfl
  unfold mapTextDelta
  cases hid : Text.truthy rawEvent.message_id with
  | none =>
    rw [hid] at hshown
    exact hshown m _ ⟨rfl,rfl⟩
  | some messageId =>
    rw [hid] at hshown
    have hmarks := (claimHistoricalMessage_marks m rawEvent messageId (rawEvent.delta.getD [])).trans
      (dropHistoricalText_marks _ messageId (rawEvent.delta.getD [])
        (m.claimHistoricalMessage rawEvent messageId (rawEvent.delta.getD [])).2)
    dsimp only
    split
    · exact delivers_same hmarks
    · exact hshown _ _ hmarks

lemma mapMessageItem_delivers (m : OmnigentEventMapper) (rawEvent : OmnigentRawEvent ν) (turnId : Text)
    (item : JsonRecord ν) : Delivers m (m.mapMessageItem isDatetime rawEvent turnId item) := by
  unfold mapMessageItem
  dsimp only
  split
  · exact delivers_same ⟨rfl,rfl⟩
  · generalize hm : m.messageItemDelta _ turnId _ = found
    obtain ⟨delta,index⟩ := found
    cases index <;> cases Text.truthy (Json.asString (Json.field item "id")) <;> dsimp only <;> split <;>
      first
        | exact delivers_same ⟨rfl,rfl⟩
        | exact delivers_text ⟨rfl,rfl⟩ rfl

lemma mapFunctionCall_delivers (m : OmnigentEventMapper) (rawEvent : OmnigentRawEvent ν) (turnId : Text)
    (item : JsonRecord ν) : Delivers m (m.mapFunctionCall isDatetime rawEvent turnId item) := by
  unfold mapFunctionCall
  split
  · rename_i callId toolName _ _
    split
    · exact delivers_same ⟨rfl,rfl⟩
    · rename_i hnew
      apply delivers_createEvent
      · intro k hk
        cases k with
        | toolCall id => exact Finset.mem_insert_of_mem hk
        | started _ | terminal _ | toolResult _ => exact hk
      · rfl
      · intro k hk
        cases hk
        exact ⟨hnew,Finset.mem_insert_self callId _⟩
  · exact delivers_same ⟨rfl,rfl⟩

lemma mapFunctionCallOutput_delivers (m : OmnigentEventMapper) (rawEvent : OmnigentRawEvent ν)
    (item : JsonRecord ν) : Delivers m (m.mapFunctionCallOutput isDatetime rawEvent item) := by
  unfold mapFunctionCallOutput
  split
  · exact delivers_same ⟨rfl,rfl⟩
  · rename_i callId _
    split
    · exact delivers_same ⟨rfl,rfl⟩
    · rename_i hnew
      apply delivers_createEvent
      · intro k hk
        cases k with
        | toolResult id => exact Finset.mem_insert_of_mem hk
        | started _ | terminal _ | toolCall _ => exact hk
      · rfl
      · intro k hk
        cases hk
        exact ⟨hnew,Finset.mem_insert_self callId _⟩

lemma mapOutputItem_delivers (m : OmnigentEventMapper) (rawEvent : OmnigentRawEvent ν) :
    Delivers m (m.mapOutputItem isDatetime rawEvent) := by
  unfold mapOutputItem
  split
  · dsimp only
    split_ifs
    · exact mapMessageItem_delivers m rawEvent _ _
    · exact mapFunctionCall_delivers m rawEvent _ _
    · exact mapFunctionCallOutput_delivers m rawEvent _
    · exact delivers_same ⟨rfl,rfl⟩
  · exact delivers_same ⟨rfl,rfl⟩

lemma createTerminalEvent_delivers (m : OmnigentEventMapper) (rawEvent : OmnigentRawEvent ν)
    {payload : RuntimeEventPayload ν} (hpayload : ∀ t, lifecycleKey t payload = t.map .terminal) :
    Delivers m (m.createTerminalEvent isDatetime rawEvent payload) := by
  unfold createTerminalEvent
  split
  · exact delivers_same ⟨rfl,rfl⟩
  · rename_i turnId hturn
    have hmarks : m.emitted ⊆
        { m with emittedTerminalTurnIds := insert turnId m.emittedTerminalTurnIds }.emitted := by
      intro k hk
      cases k with
      | terminal id => exact Finset.mem_insert_of_mem hk
      | started _ | toolCall _ | toolResult _ => exact hk
    dsimp only
    split_ifs with hreported
    · exact delivers_ignore hmarks rfl
    · apply delivers_createEvent hmarks rfl
      intro k hk
      dsimp only at hk
      rw [hpayload, (Text.truthy_eq_some.mp hturn).1] at hk
      cases hk
      exact ⟨fun h => hreported (Or.inl h),Finset.mem_insert_self turnId _⟩

lemma mapTurnStarted_delivers (m : OmnigentEventMapper) (rawEvent : OmnigentRawEvent ν) :
    Delivers m (m.mapTurnStarted isDatetime rawEvent) := by
  unfold mapTurnStarted
  split
  · exact delivers_same ⟨rfl,rfl⟩
  · rename_i turnId hturn
    split
    · exact delivers_same ⟨rfl,rfl⟩
    · rename_i hnew
      apply delivers_createEvent
      · intro k hk
        cases k with
        | started id => exact Finset.mem_insert_of_mem hk
        | terminal _ | toolCall _ | toolResult _ => exact hk
      · rfl
      · intro k hk
        dsimp only at hk
        rw [(Text.truthy_eq_some.mp hturn).1] at hk
        cases hk
        exact ⟨hnew,Finset.mem_insert_self turnId _⟩

lemma mapSessionCreated_delivers (m : OmnigentEventMapper) (rawEvent : OmnigentRawEvent ν) :
    Delivers m (m.mapSessionCreated isDatetime rawEvent) := by
  unfold mapSessionCreated
  split
  · exact delivers_same ⟨rfl,rfl⟩
  · exact delivers_text ⟨rfl,rfl⟩ rfl

/-- One case a handler. -/
lemma mapByType_delivers (m : OmnigentEventMapper) (rawEvent : OmnigentRawEvent ν) :
    Delivers m (m.mapByType isDatetime rawEvent) := by
  have hfailed : Delivers m (m.mapFailedEvent isDatetime rawEvent) :=
    createTerminalEvent_delivers m rawEvent (fun t => rfl)
  have hcancelled : Delivers m (m.mapCancelledEvent isDatetime rawEvent) :=
    createTerminalEvent_delivers m rawEvent (fun t => rfl)
  unfold mapByType
  split
  · exact delivers_same ⟨rfl,rfl⟩
  · split
    · exact mapSessionCreated_delivers m rawEvent
    · exact mapTurnStarted_delivers m rawEvent
    · exact mapTurnStarted_delivers m rawEvent
    · exact mapTextDelta_delivers m rawEvent
    · exact mapOutputItem_delivers m rawEvent
    · exact createTerminalEvent_delivers m rawEvent (fun t => rfl)
    · exact createTerminalEvent_delivers m rawEvent (fun t => rfl)
    · exact hcancelled
    · exact hcancelled
    · split_ifs
      · exact hcancelled
      · exact createTerminalEvent_delivers m rawEvent (fun t => rfl)
      · exact hfailed
    · exact hfailed
    · exact hfailed
    · split_ifs
      · exact hfailed
      · exact delivers_same ⟨rfl,rfl⟩
    · exact delivers_same ⟨rfl,rfl⟩

/-- What one raw event may add. -/
theorem deliver_emits (m : OmnigentEventMapper) (rawEvent : OmnigentRawEvent ν) :
    Emits m (deliver isDatetime m rawEvent).1 (deliver isDatetime m rawEvent).2 := by
  change Delivers m (m.map isDatetime rawEvent)
  unfold map
  split_ifs
  · exact delivers_same ⟨rfl,rfl⟩
  · exact delivers_same ⟨rfl,rfl⟩
  · split
    · exact mapByType_delivers m rawEvent
    · split_ifs
      · exact delivers_same ⟨rfl,rfl⟩
      · rename_i key _ _
        have hsame : SameMarks m { m with seenItemIds := insert key m.seenItemIds } := ⟨rfl,rfl⟩
        exact Delivers.of_same hsame (mapByType_delivers _ rawEvent)

/-- What any number of raw events add. -/
theorem deliver_all_emits (m : OmnigentEventMapper) (rawEvents : List (OmnigentRawEvent ν)) :
    Emits m (emitAll (deliver isDatetime) m rawEvents).1 (emitAll (deliver isDatetime) m rawEvents).2 := by
  apply emitAll_of_step
  · intro s
    exact ⟨EmitsOnce.nil subset_rfl,EmitsNumbered.nil rfl⟩
  · intro s t u xs ys h h'
    exact ⟨h.once.trans h'.once,h.numbered.trans h'.numbered⟩
  · exact deliver_emits

end Steps
end OmnigentEventMapper
end OmniagentPlus.OmnigentTransport
