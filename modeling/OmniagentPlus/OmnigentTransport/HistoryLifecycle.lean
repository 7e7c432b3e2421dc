import OmniagentPlus.OmnigentTransport.TurnLifecycle
import OmniagentPlus.Foundation.Transition

/-! The mapped history: numbered from one, each turn started before its other events, and every
key of it among the seeds of the live mapper. -/
namespace OmniagentPlus.OmnigentTransport
open OmniagentPlus.Foundation OmniagentPlus.CoreContracts

section History
variable {ν : Type}

lemma startedFirst_append {events : List (RuntimeEventEnvelope ν)} {e : RuntimeEventEnvelope ν}
    (h : StartedFirst events) (he : ∀ turnId, e.turnId = some turnId → eventKey e ≠ some (.started turnId) →
      ∃ s ∈ events, eventKey s = some (.started turnId)) : StartedFirst (events ++ [e]) := by
  intro before x after turnId hsplit hturn hkey
  cases List.eq_nil_or_concat after with
  | inl hnil =>
    subst hnil
    obtain ⟨hevents,hx⟩ := List.append_inj' hsplit rfl
    rw [List.cons.injEq] at hx
    rw [← hevents]
    exact he turnId (hx.1 ▸ hturn) (hx.1 ▸ hkey)
  | inr hlast =>
    obtain ⟨middle,y,hlast⟩ := hlast
    subst hlast
    rw [List.concat_eq_append, ← List.cons_append, ← List.append_assoc] at hsplit
    obtain ⟨hevents,-⟩ := List.append_inj' hsplit rfl
    exact h before x middle turnId hevents hturn hkey

/-- The keys that the live mapper gets as already emitted. -/
def HistoryMapping.Seeds (h : HistoryMapping ν) : LifecycleKey → Prop
  | .started turnId => turnId ∈ h.startedTurnIds
  | .terminal turnId => turnId ∈ h.terminalTurnIds
  | .toolCall toolCallId => toolCallId ∈ h.historicalToolCallIds
  | .toolResult toolCallId => toolCallId ∈ h.historicalToolResultIds

/-- The invariant of the loop over the items. -/
structure HistoryMapping.Coherent (h : HistoryMapping ν) : Prop where
  next : h.sequence = 1 + h.runtimeEvents.length
  numbered : h.runtimeEvents.map (·.sequence) = List.range' 1 h.runtimeEvents.length
  covered : ∀ k ∈ h.runtimeEvents.filterMap eventKey, h.Seeds k
  opened : ∀ turnId ∈ h.startedTurnIds, ∃ e ∈ h.runtimeEvents, eventKey e = some (.started turnId)
  startedFirst : StartedFirst h.runtimeEvents
  startedOnce : ∀ turnId, (h.runtimeEvents.filterMap eventKey).count (.started turnId) ≤ 1

namespace HistoryMapping

lemma coherent_start : Coherent ({} : HistoryMapping ν) where
  next := rfl
  numbered := rfl
  covered := by
    intro k hk
    cases hk
  opened := by
    intro turnId h
    exact absurd h (Finset.notMem_empty turnId)
  startedFirst := by
    intro before e after turnId h
    cases before <;> cases h
  startedOnce := by
    intro turnId
    exact Nat.zero_le 1

/-- More seeds for the same events. -/
lemma Coherent.seeded {h h' : HistoryMapping ν} (hc : h.Coherent) (hevents : h'.runtimeEvents = h.runtimeEvents)
    (hsequence : h'.sequence = h.sequence) (hstarted : h'.startedTurnIds = h.startedTurnIds)
    (hseeds : ∀ k, h.Seeds k → h'.Seeds k) : h'.Coherent where
  next := by rw [hsequence, hevents, hc.next]
  numbered := by rw [hevents, hc.numbered]
  covered := by
    rw [hevents]
    intro k hk
    exact hseeds k (hc.covered k hk)
  opened := by
    rw [hevents, hstarted]
    exact hc.opened
  startedFirst := by
    rw [hevents]
    exact hc.startedFirst
  startedOnce := by
    rw [hevents]
    exact hc.startedOnce

section Appends
variable [JsNumber ν] {isDatetime : Text → Bool} {sessionId : Text}

lemma append_eq_some {h h' : HistoryMapping ν} {d : EventDraft ν} (happend : h.append isDatetime sessionId d = some h') :
    ∃ e : RuntimeEventEnvelope ν, e.sequence = h.sequence ∧ e.turnId = d.turnId ∧ e.payload = d.payload ∧
      h' = { h with runtimeEvents := h.runtimeEvents ++ [e], sequence := h.sequence + 1 } := by
  obtain ⟨created,hcreate,hh⟩ := Option.map_eq_some_iff.mp happend
  obtain ⟨-,hcreated⟩ := (createRuntimeEvent_eq_some isDatetime).mp hcreate
  subst hcreated
  exact ⟨_,rfl,rfl,rfl,hh.symm⟩

omit [JsNumber ν] in
/-- One more event, whose key is seeded and, where it starts a turn, new. -/
lemma Coherent.push {h h' : HistoryMapping ν} {e : RuntimeEventEnvelope ν} (hc : h.Coherent)
    (hevents : h'.runtimeEvents = h.runtimeEvents ++ [e]) (hnext : h'.sequence = h.sequence + 1)
    (hsequence : e.sequence = h.sequence) (hseeds : ∀ k, h.Seeds k → h'.Seeds k)
    (hkey : ∀ k, eventKey e = some k → h'.Seeds k)
    (hopened : ∀ turnId ∈ h'.startedTurnIds, turnId ∈ h.startedTurnIds ∨ eventKey e = some (.started turnId))
    (hfirst : ∀ turnId, e.turnId = some turnId → eventKey e ≠ some (.started turnId) → turnId ∈ h.startedTurnIds)
    (honce : ∀ turnId, eventKey e = some (.started turnId) → turnId ∉ h.startedTurnIds) : h'.Coherent where
  next := by
    rw [hnext, hevents, hc.next, List.length_append]
    rfl
  numbered := by
    rw [hevents, List.map_append, hc.numbered, List.length_append, List.length_singleton, List.range'_concat,
      List.map_singleton, hsequence, hc.next, Nat.one_mul]
  covered := by
    intro k hk
    rw [hevents, List.filterMap_append, List.mem_append] at hk
    cases hk with
    | inl hold => exact hseeds k (hc.covered k hold)
    | inr hnew => exact hkey k (by simpa using hnew)
  opened := by
    intro turnId ht
    rw [hevents]
    cases hopened turnId ht with
    | inl hold =>
      obtain ⟨s,hs,hstarted⟩ := hc.opened turnId hold
      exact ⟨s,List.mem_append_left _ hs,hstarted⟩
    | inr hnew => exact ⟨e,List.mem_append_right _ (List.mem_singleton_self e),hnew⟩
  startedFirst := by
    rw [hevents]
    apply startedFirst_append hc.startedFirst
    intro turnId hturn hne
    exact hc.opened turnId (hfirst turnId hturn hne)
  startedOnce := by
    intro turnId
    rw [hevents, List.filterMap_append, List.count_append]
    by_cases hstarts : eventKey e = some (.started turnId)
    · have hold : (h.runtimeEvents.filterMap eventKey).count (.started turnId) = 0 := by
        apply List.count_eq_zero_of_not_mem
        intro hmem
        exact honce turnId hstarts (hc.covered _ hmem)
      simp [hold, hstarts]
    · have hnew : ([e].filterMap eventKey).count (.started turnId) = 0 := by
        apply List.count_eq_zero_of_not_mem
        intro hmem
        exact hstarts (by simpa using hmem)
      rw [hnew]
      exact hc.startedOnce turnId

/-- An event of a started turn that does not start it. -/
lemma append_coherent {h h' : HistoryMapping ν} {d : EventDraft ν} {turnId : Text} (hc : h.Coherent)
    (hturn : d.turnId = some turnId) (hstarted : turnId ∈ h.startedTurnIds)
    (hkey : ∀ k, lifecycleKey d.turnId d.payload = some k → h.Seeds k)
    (hnot : ∀ t, lifecycleKey d.turnId d.payload ≠ some (.started t))
    (happend : h.append isDatetime sessionId d = some h') :
    h'.Coherent ∧ h'.startedTurnIds = h.startedTurnIds ∧ h'.terminalTurnIds = h.terminalTurnIds := by
  obtain ⟨e,hsequence,het,hep,rfl⟩ := append_eq_some happend
  have hekey : eventKey e = lifecycleKey d.turnId d.payload := by rw [eventKey, het, hep]
  refine ⟨?_,rfl,rfl⟩
  apply hc.push rfl rfl hsequence
  · intro k hk
    exact hk
  · intro k hk
    rw [hekey] at hk
    exact hkey k hk
  · intro t ht
    exact Or.inl ht
  · intro t ht hne
    rw [het, hturn] at ht
    cases ht
    exact hstarted
  · intro t ht
    rw [hekey] at ht
    exact absurd ht (hnot t)

lemma ensureStarted_coherent {h h' : HistoryMapping ν} {item : OmnigentConversationItem ν} {text : List Text}
    (hc : h.Coherent) (hstart : h.ensureStarted isDatetime sessionId item text = some h') :
    h'.Coherent ∧ item.response_id ∈ h'.startedTurnIds ∧ h'.terminalTurnIds = h.terminalTurnIds := by
  unfold ensureStarted at hstart
  split at hstart
  · rename_i hin
    cases hstart
    exact ⟨hc,hin,rfl⟩
  · rename_i hnew
    obtain ⟨occurredAt,-,happend⟩ := Option.bind_eq_some_iff.mp hstart
    obtain ⟨e,hsequence,het,hep,rfl⟩ := append_eq_some happend
    have hekey : eventKey e = some (.started item.response_id) := by
      rw [eventKey, het, hep]
      rfl
    refine ⟨?_,Finset.mem_insert_self item.response_id h.startedTurnIds,rfl⟩
    apply hc.push rfl rfl hsequence
    · intro k hk
      cases k with
      | started t => exact Finset.mem_insert_of_mem hk
      | terminal _ | toolCall _ | toolResult _ => exact hk
    · intro k hk
      rw [hekey] at hk
      cases hk
      exact Finset.mem_insert_self item.response_id h.startedTurnIds
    · intro t ht
      cases Finset.mem_insert.mp ht with
      | inl heq =>
        subst heq
        exact Or.inr hekey
      | inr hold => exact Or.inl hold
    · intro t ht hne
      rw [het] at ht
      cases ht
      exact absurd hekey hne
    · intro t ht
      rw [hekey] at ht
      cases ht
      exact hnew

/-- Events without a key, one after another. -/
lemma appendTexts_coherent {h h' : HistoryMapping ν} {item : OmnigentConversationItem ν} {occurredAt : Text}
    {text : List Text} (hc : h.Coherent) (hstarted : item.response_id ∈ h.startedTurnIds)
    (happend : h.appendTexts isDatetime sessionId item occurredAt text = some h') :
    h'.Coherent ∧ item.response_id ∈ h'.startedTurnIds ∧ h'.terminalTurnIds = h.terminalTurnIds := by
  unfold appendTexts at happend
  rw [foldlM_eq_run] at happend
  refine run_invariant _ (I := fun g => g.Coherent ∧ item.response_id ∈ g.startedTurnIds ∧
    g.terminalTurnIds = h.terminalTurnIds) ?_ ⟨hc,hstarted,rfl⟩ happend
  intro g p g' hg hstep
  obtain ⟨hgc,hgstarted,hgterminal⟩ := hg
  obtain ⟨hc',hs,ht⟩ := append_coherent hgc rfl hgstarted (fun k hk => by cases hk) (fun t => by simp [lifecycleKey]) hstep
  exact ⟨hc',hs ▸ hgstarted,ht.trans hgterminal⟩

/-- An event of a started turn whose key was just seeded. -/
lemma append_seeded_coherent {h g h' : HistoryMapping ν} {d : EventDraft ν} {turnId : Text} {key : LifecycleKey}
    (hc : h.Coherent) (happend : g.append isDatetime sessionId d = some h')
    (hkey : lifecycleKey d.turnId d.payload = some key) (hnot : ∀ t, key ≠ .started t)
    (hturn : d.turnId = some turnId) (hstarted : turnId ∈ h.startedTurnIds)
    (hevents : g.runtimeEvents = h.runtimeEvents) (hsequence : g.sequence = h.sequence)
    (hsame : g.startedTurnIds = h.startedTurnIds) (hseeds : ∀ k, h.Seeds k → g.Seeds k) (hnew : g.Seeds key) :
    h'.Coherent := by
  have hg : g.Coherent := hc.seeded hevents hsequence hsame hseeds
  refine (append_coherent hg hturn (hsame ▸ hstarted) ?_ ?_ happend).1
  · intro k hk
    rw [hkey] at hk
    cases hk
    exact hnew
  · intro t ht
    rw [hkey] at ht
    cases ht
    exact hnot t rfl

lemma append_terminal_coherent {h h' : HistoryMapping ν} {d : EventDraft ν} {turnId : Text} (hc : h.Coherent)
    (hstarted : turnId ∈ h.startedTurnIds) (hkey : lifecycleKey d.turnId d.payload = some (.terminal turnId))
    (hturn : d.turnId = some turnId)
    (happend : ({ h with terminalTurnIds := insert turnId h.terminalTurnIds } : HistoryMapping ν).append
      isDatetime sessionId d = some h') : h'.Coherent := by
  refine append_seeded_coherent hc happend hkey (fun t => by simp) hturn hstarted rfl rfl rfl ?_ ?_
  · intro k hk
    cases k with
    | terminal t => exact Finset.mem_insert_of_mem hk
    | started _ | toolCall _ | toolResult _ => exact hk
  · exact Finset.mem_insert_self turnId h.terminalTurnIds

lemma mapMessage_coherent {h h' : HistoryMapping ν} {item : OmnigentConversationItem ν} {occurredAt : Text}
    {text : List Text} (hc : h.Coherent) (hmap : h.mapMessage isDatetime sessionId item occurredAt text = some h') :
    h'.Coherent := by
  unfold mapMessage at hmap
  dsimp only at hmap
  split at hmap
  · cases hmap
    exact hc
  · obtain ⟨g,hg,hmap⟩ := Option.bind_eq_some_iff.mp hmap
    obtain ⟨hgc,hgstarted,-⟩ := ensureStarted_coherent hc hg
    split at hmap
    · cases hmap
      exact hgc
    · obtain ⟨f,hf,hmap⟩ := Option.bind_eq_some_iff.mp hmap
      have hrecorded : (g.recordMessage item text).Coherent := hgc.seeded rfl rfl rfl (fun k hk => hk)
      obtain ⟨hfc,hfstarted,-⟩ := appendTexts_coherent hrecorded hgstarted hf
      split at hmap
      · exact append_terminal_coherent hfc hfstarted rfl rfl hmap
      · cases hmap
        exact hfc

lemma mapFunctionCall_coherent {h h' : HistoryMapping ν} {item : OmnigentConversationItem ν} {occurredAt : Text}
    {text : List Text} (hc : h.Coherent)
    (hmap : h.mapFunctionCall isDatetime sessionId item occurredAt text = some h') : h'.Coherent := by
  unfold mapFunctionCall at hmap
  split at hmap
  · rename_i callId toolName _ _
    obtain ⟨g,hg,hmap⟩ := Option.bind_eq_some_iff.mp hmap
    obtain ⟨hgc,hgstarted,-⟩ := ensureStarted_coherent hc hg
    refine append_seeded_coherent hgc hmap rfl (fun t => by simp) rfl hgstarted rfl rfl rfl ?_ ?_
    · intro k hk
      cases k with
      | toolCall t => exact Finset.mem_insert_of_mem hk
      | started _ | terminal _ | toolResult _ => exact hk
    · exact Finset.mem_insert_self callId g.historicalToolCallIds
  · cases hmap
    exact hc

lemma mapFunctionCallOutput_coherent {h h' : HistoryMapping ν} {item : OmnigentConversationItem ν}
    {occurredAt : Text} {text : List Text} (hc : h.Coherent)
    (hmap : h.mapFunctionCallOutput isDatetime sessionId item occurredAt text = some h') : h'.Coherent := by
  unfold mapFunctionCallOutput at hmap
  split at hmap
  · rename_i callId _
    obtain ⟨g,hg,hmap⟩ := Option.bind_eq_some_iff.mp hmap
    obtain ⟨hgc,hgstarted,-⟩ := ensureStarted_coherent hc hg
    refine append_seeded_coherent hgc hmap rfl (fun t => by simp) rfl hgstarted rfl rfl rfl ?_ ?_
    · intro k hk
      cases k with
      | toolResult t => exact Finset.mem_insert_of_mem hk
      | started _ | terminal _ | toolCall _ => exact hk
    · exact Finset.mem_insert_self callId g.historicalToolResultIds
  · cases hmap
    exact hc

lemma mapError_coherent {h h' : HistoryMapping ν} {item : OmnigentConversationItem ν} {occurredAt : Text}
    {text : List Text} (hc : h.Coherent) (hmap : h.mapError isDatetime sessionId item occurredAt text = some h') :
    h'.Coherent := by
  unfold mapError at hmap
  split at hmap
  · cases hmap
    exact hc
  · obtain ⟨g,hg,hmap⟩ := Option.bind_eq_some_iff.mp hmap
    obtain ⟨hgc,hgstarted,-⟩ := ensureStarted_coherent hc hg
    exact append_terminal_coherent hgc hgstarted rfl rfl hmap

lemma mapItem_coherent {h h' : HistoryMapping ν} {item : OmnigentConversationItem ν} (hc : h.Coherent)
    (hmap : h.mapItem isDatetime sessionId item = some h') : h'.Coherent := by
  obtain ⟨occurredAt,-,hmap⟩ := Option.bind_eq_some_iff.mp hmap
  have hseen : ({ h with seenItemIds := insert item.id h.seenItemIds } : HistoryMapping ν).Coherent :=
    hc.seeded rfl rfl rfl (fun k hk => hk)
  dsimp only at hmap
  split at hmap
  · exact mapMessage_coherent hseen hmap
  · exact mapFunctionCall_coherent hseen hmap
  · exact mapFunctionCallOutput_coherent hseen hmap
  · exact mapError_coherent hseen hmap
  · cases hmap
    exact hseen

/-- The invariant after any list of items. -/
theorem foldlM_mapItem_coherent {items : List (OmnigentConversationItem ν)} {h : HistoryMapping ν}
    (hmap : items.foldlM (mapItem isDatetime sessionId) {} = some h) : h.Coherent := by
  rw [foldlM_eq_run] at hmap
  exact run_invariant _ (fun _ _ _ hc hstep => mapItem_coherent hc hstep) coherent_start hmap

end Appends
end HistoryMapping

variable [JsNumber ν]

/-- What the mapper of the live stream emits after the history that seeds it. -/
def liveEvents (isDatetime : Text → Bool) (sessionId : Text) (mapped : MappedOmnigentHistory ν) (startingSequence : ℕ)
    (rawEvents : List (OmnigentRawEvent ν)) : List (RuntimeEventEnvelope ν) :=
  (emitAll (OmnigentEventMapper.deliver isDatetime)
    (newOmnigentEventMapper sessionId (mapped.mapperOptions startingSequence)) rawEvents).2

/-- Over any history and any raw events after it, each turn is started and ended at most once
and each tool call and result comes at most once live, none of them again after the history;
live events are numbered on without a gap, historical ones from one, and each turn of the
history is started before its other events. -/
theorem history_then_live_lifecycle (isDatetime : Text → Bool) (sessionId : Text)
    (items : List (OmnigentConversationItem ν)) (afterSequence : Option ℕ) (mapped : MappedOmnigentHistory ν)
    (hmapped : mapOmnigentConversationHistory isDatetime sessionId items afterSequence = some mapped)
    (startingSequence : ℕ) (rawEvents : List (OmnigentRawEvent ν)) :
    LifecycleUnique mapped.runtimeEvents (liveEvents isDatetime sessionId mapped startingSequence rawEvents)
      startingSequence := by
  obtain ⟨h,hfold,rfl⟩ := Option.map_eq_some_iff.mp hmapped
  have hc := HistoryMapping.foldlM_mapItem_coherent hfold
  have hlive := @OmnigentEventMapper.deliver_all_emits ν _ isDatetime (newOmnigentEventMapper sessionId
    ((h.toMapped sessionId afterSequence).mapperOptions startingSequence)) rawEvents
  refine ⟨hlive.numbered.numbers,hlive.once.nodup,?_,hc.numbered,hc.startedFirst,hc.startedOnce⟩
  intro k hk hhistory
  apply hlive.once.fresh k hk
  have hseeded := hc.covered k hhistory
  cases k with
  | started t | terminal t | toolCall t | toolResult t => exact hseeded

end History

def startOfEpoch : Text := Text.of "1970-01-01T00:00:00.000Z"

/-- Whole numbers, with the one date that the runs below need. -/
instance epochSeconds : JsNumber ℕ where
  ofLiteral t := t.foldl (fun n u => 10 * n + (u.toNat - 48)) 0
  isFinite _ := true
  isInteger _ := true
  isNonnegative _ := true
  toText n := Text.of (toString n)
  epochToIso n := if n = 0 then some startOfEpoch else none

/-- An assistant's message that was persisted for a turn. -/
def assistantItem (id turnId text : String) : OmnigentConversationItem ℕ where
  created_at := 0
  id := Text.of id
  response_id := Text.of turnId
  type := .message
  data := [(Text.of "role",.string (Text.of "assistant")),
    (Text.of "content",.array [.object [(Text.of "text",.string (Text.of text))]])]

/-- A tool call that was persisted for a turn. -/
def functionCallItem (id turnId callId : String) : OmnigentConversationItem ℕ where
  created_at := 0
  id := Text.of id
  response_id := Text.of turnId
  type := .functionCall
  data := [(Text.of "call_id",.string (Text.of callId)),(Text.of "name",.string (Text.of "search"))]

/-- A live event of a turn. -/
def turnEvent (id turnId : String) (type : OmnigentStreamEventType) : OmnigentRawEvent ℕ :=
  { id := Text.of id, type := .stream type, sessionId := Text.of "s", occurredAt := startOfEpoch, turnId := some (Text.of turnId) }

theorem history_then_live_lifecycle_resumed :
    ∃ mapped, mapOmnigentConversationHistory (· == startOfEpoch) (Text.of "s")
        [assistantItem "m1" "t1" "hello",functionCallItem "f1" "t1" "c1"] none = some mapped ∧
      LifecycleUnique mapped.runtimeEvents (liveEvents (· == startOfEpoch) (Text.of "s") mapped 4
        [turnEvent "e1" "t1" .turnStarted,turnEvent "e2" "t2" .turnStarted,turnEvent "e3" "t1" .turnCompleted]) 4 := by
  have hsome : (mapOmnigentConversationHistory (· == startOfEpoch) (Text.of "s")
      [assistantItem "m1" "t1" "hello",functionCallItem "f1" "t1" "c1"] none).isSome = true := by decide +kernel
  obtain ⟨mapped,hmapped⟩ := Option.isSome_iff_exists.mp hsome
  exact ⟨mapped,hmapped,history_then_live_lifecycle _ _ _ none mapped hmapped 4 _⟩

end OmniagentPlus.OmnigentTransport
