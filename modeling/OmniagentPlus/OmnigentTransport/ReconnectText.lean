import OmniagentPlus.OmnigentTransport.HistoryLifecycle
import OmniagentPlus.OmnigentTransport.TextReplay
import Mathlib.Data.Finset.Lattice.Lemmas
import Mathlib.Data.Finset.Dedup

/-! Text of a persisted message that the live stream sends again: which deltas the seeded mapper
keeps back. -/
namespace OmniagentPlus.OmnigentTransport
open OmniagentPlus.Foundation OmniagentPlus.CoreContracts

section Shown
variable {ν : Type}

def deltaText (e : RuntimeEventEnvelope ν) : Option Text :=
  match e.payload with
  | .textDelta delta => some delta
  | _ => none

/-- The text that events show. -/
def shownText (events : List (RuntimeEventEnvelope ν)) : Text := (events.filterMap deltaText).flatten

lemma shownText_append (es fs : List (RuntimeEventEnvelope ν)) : shownText (es ++ fs) = shownText es ++ shownText fs := by
  simp [shownText]

/-- An assistant's message that history shows. -/
def isAssistantMessage (item : OmnigentConversationItem ν) : Bool :=
  decide (item.type = .message) && !Json.isTrue (Json.field item.data "is_meta") &&
    decide (itemRole item = some (Text.of "assistant"))

/-- The text of the message `messageId` in a history: the one of its last version. -/
def persistedText (items : List (OmnigentConversationItem ν)) (messageId : Text) : Option Text :=
  ((items.filter (fun item => isAssistantMessage item && decide (item.id = messageId))).getLast?).map
    (fun item => (contentText item).flatten)

/-- The key of an event in history, or one that came before. -/
def droppedForKey (history seen : Finset Text) (e : OmnigentRawEvent ν) : Bool :=
  (Text.truthy e.itemId).any (fun key => decide (key ∈ history)) ||
    (OmnigentEventMapper.itemKey e).any (fun key => decide (key ∈ seen))

/-- The keys seen after an event with this key. -/
def remember (seen : Finset Text) : Option Text → Finset Text
  | none => seen
  | some key => insert key seen

/-- The deltas of the events that are not dropped for their key. -/
def newDeltas (history : Finset Text) : Finset Text → List (OmnigentRawEvent ν) → List Text
  | _, [] => []
  | seen, e :: es =>
    if droppedForKey history seen e then newDeltas history seen es
    else e.delta.getD [] :: newDeltas history (remember seen (OmnigentEventMapper.itemKey e)) es

/-- A delta of the message, as the stream normalizer makes them. -/
structure DeltaOf (isDatetime : Text → Bool) (messageId : Text) (e : OmnigentRawEvent ν) : Prop where
  type : e.type = .stream .responseOutputTextDelta
  message : e.message_id = some messageId
  id : e.id ≠ []
  turn : optionalNonempty e.turnId = true
  time : isDatetime e.occurredAt = true

end Shown

namespace OmnigentEventMapper
section Deltas
variable {ν : Type}

/-- What the deltas of a stream leave as it is. -/
structure SameStream (m m' : OmnigentEventMapper) : Prop where
  seen : m'.seenItemIds = m.seenItemIds
  historical : m'.historicalItemIds = m.historicalItemIds
  session : m'.sessionId = m.sessionId
  next : m.nextSequence ≤ m'.nextSequence

lemma SameStream.refl (m : OmnigentEventMapper) : SameStream m m := ⟨rfl,rfl,rfl,le_rfl⟩

lemma SameStream.trans {m m' m'' : OmnigentEventMapper} (h : SameStream m m') (h' : SameStream m' m'') :
    SameStream m m'' :=
  ⟨h'.seen.trans h.seen,h'.historical.trans h.historical,h'.session.trans h.session,h.next.trans h'.next⟩

lemma claimHistoricalMessage_same (m : OmnigentEventMapper) (rawEvent : OmnigentRawEvent ν) (messageId delta : Text) :
    SameStream m (m.claimHistoricalMessage rawEvent messageId delta).1 := by
  unfold claimHistoricalMessage
  split
  · exact SameStream.refl m
  · dsimp only
    split
    · exact SameStream.refl m
    · split <;> exact ⟨rfl,rfl,rfl,le_rfl⟩

/-- A message with a seed keeps it when it is claimed. -/
lemma claimHistoricalMessage_seeded {m : OmnigentEventMapper} {messageId remaining : Text}
    (h : m.historicalTextByMessageId.get? messageId = some remaining) (rawEvent : OmnigentRawEvent ν) (delta : Text) :
    (m.claimHistoricalMessage rawEvent messageId delta).2 = some remaining := by
  unfold claimHistoricalMessage
  split
  · exact h
  · dsimp only
    split
    · exact h
    · split
      · rename_i hnone _
        rw [h] at hnone
        cases hnone
      · exact h

lemma forgetHistoricalText_same (m : OmnigentEventMapper) (messageId delta remaining : Text) :
    SameStream m (m.forgetHistoricalText messageId delta remaining).1 := by
  unfold forgetHistoricalText
  dsimp only
  split <;> exact ⟨rfl,rfl,rfl,le_rfl⟩

lemma dropHistoricalText_same (m : OmnigentEventMapper) (messageId delta : Text) (remaining : Option Text) :
    SameStream m (m.dropHistoricalText messageId delta remaining).1 := by
  unfold dropHistoricalText
  split
  · exact SameStream.refl m
  · split
    · exact ⟨rfl,rfl,rfl,le_rfl⟩
    · split
      · split
        · exact ⟨rfl,rfl,rfl,le_rfl⟩
        · exact forgetHistoricalText_same m messageId delta _
      · exact forgetHistoricalText_same m messageId delta _

lemma recordText_same (m : OmnigentEventMapper) (messageId turnId : Option Text) (delta : Text) :
    SameStream m (m.recordText messageId turnId delta) := by
  cases messageId with
  | none => cases turnId <;> exact ⟨rfl,rfl,rfl,le_rfl⟩
  | some messageId =>
    cases turnId with
    | none => exact ⟨rfl,rfl,rfl,le_rfl⟩
    | some turnId =>
      by_cases h : messageId ∈ (m.pendingMessageIdsByTurnId.get? turnId).getD []
      · rw [recordText, if_pos h]
        exact ⟨rfl,rfl,rfl,le_rfl⟩
      · rw [recordText, if_neg h]
        exact ⟨rfl,rfl,rfl,le_rfl⟩

/-- A piece that starts what is left. -/
lemma dropHistoricalText_leading {m : OmnigentEventMapper} {messageId delta remaining : Text} (hd : delta ≠ [])
    (hp : delta <+: remaining) : m.dropHistoricalText messageId delta (some remaining) =
      (m.keepHistoricalText messageId (remaining.drop delta.length),none) := by
  simp [dropHistoricalText, hd, List.isPrefixOf_iff_prefix.mpr hp]

/-- A piece whose first match ends what is left. -/
lemma dropHistoricalText_end {m : OmnigentEventMapper} {messageId delta remaining : Text} (hd : delta ≠ [])
    (he : EndsFirst delta remaining) : (m.dropHistoricalText messageId delta (some remaining)).2 = none := by
  obtain ⟨k,hk,hend⟩ := he
  unfold dropHistoricalText
  dsimp only
  split
  · rfl
  · simp [hk, hd, hend]

/-- Any other piece is not kept back. -/
lemma dropHistoricalText_other {m : OmnigentEventMapper} {messageId delta remaining : Text}
    (hp : ¬ delta <+: remaining) (he : ¬ EndsFirst delta remaining) (hr : ¬ remaining <+: delta) :
    (m.dropHistoricalText messageId delta (some remaining)).2 = some delta := by
  have hforget : (m.forgetHistoricalText messageId delta remaining).2 = some delta := by
    unfold forgetHistoricalText
    rw [if_neg (fun h => hr (List.isPrefixOf_iff_prefix.mp h))]
  unfold dropHistoricalText
  dsimp only
  rw [if_neg (fun h => hp (List.isPrefixOf_iff_prefix.mp (by simpa using (Bool.and_eq_true_iff.mp h).2)))]
  split
  · rename_i k hk
    rw [if_neg (fun h => he ⟨k,hk,by simpa using (Bool.and_eq_true_iff.mp h).2⟩)]
    exact hforget
  · exact hforget

/-- Of an empty piece nothing is left to show. -/
lemma dropHistoricalText_empty (m : OmnigentEventMapper) (messageId : Text) (remaining : Option Text) :
    ((m.dropHistoricalText messageId [] remaining).2).getD [] = [] := by
  have hforget : ∀ r : Text, (m.forgetHistoricalText messageId [] r).2.getD [] = [] := by
    intro r
    unfold forgetHistoricalText
    dsimp only
    split <;> simp
  unfold dropHistoricalText
  split
  · rfl
  · simp only [List.isEmpty_nil, Bool.not_true, Bool.false_and, Bool.false_eq_true, if_false]
    split <;> exact hforget _

variable [JsNumber ν] {isDatetime : Text → Bool}

lemma createEvent_same (m : OmnigentEventMapper) (d : EventDraft ν) : SameStream m (m.createEvent isDatetime d).1 := by
  unfold createEvent
  split
  · exact SameStream.refl m
  · exact ⟨rfl,rfl,rfl,Nat.le_succ _⟩

/-- An event shows its own text or none. -/
lemma createEvent_text (m : OmnigentEventMapper) (d : EventDraft ν) {delta : Text} (h : d.payload = .textDelta delta) :
    shownText ((m.createEvent isDatetime d).2.getD []) = [] ∨
      shownText ((m.createEvent isDatetime d).2.getD []) = delta := by
  unfold createEvent
  split
  · exact Or.inl rfl
  · rename_i created hcreated
    obtain ⟨-,rfl⟩ := (createRuntimeEvent_eq_some isDatetime).mp hcreated
    exact Or.inr (by simp [shownText, deltaText, h])

/-- The event schema takes a delta of a stream. -/
lemma createEvent_delta {m : OmnigentEventMapper} {messageId delta : Text} {e : OmnigentRawEvent ν}
    (he : DeltaOf isDatetime messageId e) (hsession : m.sessionId ≠ []) (hnext : 0 < m.nextSequence) :
    shownText ((m.createEvent isDatetime
      (⟨e.id,e.occurredAt,.textDelta delta,false,e.turnId⟩ : EventDraft ν)).2.getD []) = delta := by
  have hcreate : createRuntimeEvent (ν := ν) isDatetime ⟨e.id,m.nextSequence,m.sessionId,e.turnId,e.occurredAt,
      .textDelta delta,.metadataOnly,false⟩ = some ⟨e.id,m.nextSequence,m.sessionId,e.turnId,e.occurredAt,
      .textDelta delta,.metadataOnly,false⟩ := by
    rw [createRuntimeEvent_eq_some]
    simp [RuntimeEventEnvelope.parses, RuntimeEventPayload.parses, he.id, he.turn, he.time, hsession, hnext]
  simp [createEvent, hcreate, shownText, deltaText]

omit [JsNumber ν] in
/-- What is left to show of a delta of a message. -/
def leftToShow (m : OmnigentEventMapper) (e : OmnigentRawEvent ν) (messageId : Text) : OmnigentEventMapper × Option Text :=
  (m.claimHistoricalMessage e messageId (e.delta.getD [])).1.dropHistoricalText messageId (e.delta.getD [])
    (m.claimHistoricalMessage e messageId (e.delta.getD [])).2

lemma mapTextDelta_kept {m : OmnigentEventMapper} {e : OmnigentRawEvent ν} {messageId : Text}
    (h : Text.truthy e.message_id = some messageId) (hleft : (m.leftToShow e messageId).2 = none) :
    m.mapTextDelta isDatetime e = (m.leftToShow e messageId).1.ignore := by
  unfold leftToShow at hleft ⊢
  unfold mapTextDelta
  rw [h]
  dsimp only
  rw [hleft]

lemma mapTextDelta_shown {m : OmnigentEventMapper} {e : OmnigentRawEvent ν} {messageId delta : Text}
    (h : Text.truthy e.message_id = some messageId) (hleft : (m.leftToShow e messageId).2 = some delta) :
    m.mapTextDelta isDatetime e = ((m.leftToShow e messageId).1.recordText (some messageId) (Text.truthy e.turnId)
      delta).createEvent isDatetime ⟨e.id,e.occurredAt,.textDelta delta,false,e.turnId⟩ := by
  unfold leftToShow at hleft ⊢
  unfold mapTextDelta
  rw [h]
  dsimp only
  rw [hleft]

lemma mapTextDelta_unnamed {m : OmnigentEventMapper} {e : OmnigentRawEvent ν} (h : Text.truthy e.message_id = none) :
    m.mapTextDelta isDatetime e = (m.recordText none (Text.truthy e.turnId) (e.delta.getD [])).createEvent isDatetime
      ⟨e.id,e.occurredAt,.textDelta (e.delta.getD []),false,e.turnId⟩ := by
  unfold mapTextDelta
  rw [h]

omit [JsNumber ν] in
lemma leftToShow_same (m : OmnigentEventMapper) (e : OmnigentRawEvent ν) (messageId : Text) :
    SameStream m (m.leftToShow e messageId).1 :=
  (claimHistoricalMessage_same m e messageId _).trans (dropHistoricalText_same _ messageId _ _)

lemma mapTextDelta_same (m : OmnigentEventMapper) (e : OmnigentRawEvent ν) :
    SameStream m (m.mapTextDelta isDatetime e).1 := by
  cases h : Text.truthy e.message_id with
  | none =>
    rw [mapTextDelta_unnamed h]
    exact (recordText_same m none _ _).trans (createEvent_same _ _)
  | some messageId =>
    cases hleft : (m.leftToShow e messageId).2 with
    | none =>
      rw [mapTextDelta_kept h hleft]
      exact leftToShow_same m e messageId
    | some delta =>
      rw [mapTextDelta_shown h hleft]
      exact (leftToShow_same m e messageId).trans ((recordText_same _ _ _ _).trans (createEvent_same _ _))

/-- A delta without text shows none. -/
lemma mapTextDelta_empty (m : OmnigentEventMapper) {e : OmnigentRawEvent ν} (hd : e.delta.getD [] = []) :
    shownText ((m.mapTextDelta isDatetime e).2.getD []) = [] := by
  have hempty : ∀ m' : OmnigentEventMapper, shownText ((m'.createEvent isDatetime
      (⟨e.id,e.occurredAt,.textDelta [],false,e.turnId⟩ : EventDraft ν)).2.getD []) = [] := by
    intro m'
    cases createEvent_text m' (⟨e.id,e.occurredAt,.textDelta [],false,e.turnId⟩ : EventDraft ν) rfl with
    | inl ht => exact ht
    | inr ht => exact ht
  cases h : Text.truthy e.message_id with
  | none =>
    rw [mapTextDelta_unnamed h, hd]
    exact hempty _
  | some messageId =>
    cases hleft : (m.leftToShow e messageId).2 with
    | none =>
      rw [mapTextDelta_kept h hleft]
      rfl
    | some delta =>
      have hdelta : delta = [] := by
        have hdrop := dropHistoricalText_empty (m.claimHistoricalMessage e messageId []).1 messageId
          (m.claimHistoricalMessage e messageId []).2
        unfold leftToShow at hleft
        rw [hd] at hleft
        rw [hleft] at hdrop
        exact hdrop
      rw [mapTextDelta_shown h hleft, hdelta]
      exact hempty _

section Seeded
variable {m : OmnigentEventMapper} {e : OmnigentRawEvent ν} {messageId R : Text}

omit [JsNumber ν] in
lemma leftToShow_seeded (hseed : m.historicalTextByMessageId.get? messageId = some R) :
    ∃ m' : OmnigentEventMapper,
      m.leftToShow e messageId = m'.dropHistoricalText messageId (e.delta.getD []) (some R) :=
  ⟨_,by rw [leftToShow, claimHistoricalMessage_seeded hseed e (e.delta.getD [])]⟩

/-- A piece that starts what is left is kept back, and the rest is still to come again. -/
lemma mapTextDelta_leading (hid : Text.truthy e.message_id = some messageId)
    (hseed : m.historicalTextByMessageId.get? messageId = some R) (hd : e.delta.getD [] ≠ [])
    (hp : e.delta.getD [] <+: R) (hrest : R.drop (e.delta.getD []).length ≠ []) :
    shownText ((m.mapTextDelta isDatetime e).2.getD []) = [] ∧
      (m.mapTextDelta isDatetime e).1.historicalTextByMessageId.get? messageId =
        some (R.drop (e.delta.getD []).length) := by
  obtain ⟨m',hleft⟩ := leftToShow_seeded (e := e) hseed
  rw [dropHistoricalText_leading hd hp] at hleft
  rw [mapTextDelta_kept hid (by rw [hleft]), hleft]
  refine ⟨rfl,?_⟩
  simp only [ignore, keepHistoricalText]
  rw [if_neg (by simpa using hrest)]
  exact Dictionary.get?_set_self _ messageId _

/-- The last piece is kept back where it starts what is left or its first match ends it. -/
lemma mapTextDelta_last (hid : Text.truthy e.message_id = some messageId)
    (hseed : m.historicalTextByMessageId.get? messageId = some R) (hd : e.delta.getD [] ≠ [])
    (h : e.delta.getD [] <+: R ∨ EndsFirst (e.delta.getD []) R) :
    shownText ((m.mapTextDelta isDatetime e).2.getD []) = [] := by
  obtain ⟨m',hleft⟩ := leftToShow_seeded (e := e) hseed
  have hnone : (m.leftToShow e messageId).2 = none := by
    rw [hleft]
    cases h with
    | inl hp => rw [dropHistoricalText_leading hd hp]
    | inr he => exact dropHistoricalText_end hd he
  rw [mapTextDelta_kept hid hnone]
  rfl

/-- Any other piece is shown. -/
lemma mapTextDelta_other (he : DeltaOf isDatetime messageId e) (hid : Text.truthy e.message_id = some messageId)
    (hseed : m.historicalTextByMessageId.get? messageId = some R) (hsession : m.sessionId ≠ [])
    (hnext : 0 < m.nextSequence) (hp : ¬ e.delta.getD [] <+: R) (hend : ¬ EndsFirst (e.delta.getD []) R)
    (hlonger : ¬ R <+: e.delta.getD []) :
    shownText ((m.mapTextDelta isDatetime e).2.getD []) = e.delta.getD [] := by
  obtain ⟨m',hleft⟩ := leftToShow_seeded (e := e) hseed
  have hsome : (m.leftToShow e messageId).2 = some (e.delta.getD []) := by
    rw [hleft]
    exact dropHistoricalText_other hp hend hlonger
  have hsame := (leftToShow_same m e messageId).trans
    (recordText_same (m.leftToShow e messageId).1 (some messageId) (Text.truthy e.turnId) (e.delta.getD []))
  rw [mapTextDelta_shown hid hsome]
  exact createEvent_delta he (hsame.session ▸ hsession) (Nat.lt_of_lt_of_le hnext hsame.next)

end Seeded

/-- The mapper of a stream over the history's item ids that has seen the keys `seen`. -/
structure StreamAt (m : OmnigentEventMapper) (history seen : Finset Text) : Prop where
  historical : m.historicalItemIds = history
  seen : m.seenItemIds = seen
  session : m.sessionId ≠ []
  next : 0 < m.nextSequence

lemma StreamAt.same {m m' : OmnigentEventMapper} {history seen : Finset Text} (h : StreamAt m history seen)
    (hsame : SameStream m m') : StreamAt m' history seen :=
  ⟨hsame.historical.trans h.historical,hsame.seen.trans h.seen,fun hs => h.session (hsame.session ▸ hs),
    Nat.lt_of_lt_of_le h.next hsame.next⟩

section Run
variable {messageId : Text} {history : Finset Text}

lemma deliver_dropped {m : OmnigentEventMapper} {seen : Finset Text} {e : OmnigentRawEvent ν}
    (hat : StreamAt m history seen) (he : DeltaOf isDatetime messageId e)
    (hdrop : droppedForKey history seen e = true) : deliver isDatetime m e = (m,[]) := by
  have hmap : m.map isDatetime e = m.ignore := by
    unfold map
    rw [if_neg (by simp [he.type])]
    rw [droppedForKey, ← hat.historical, ← hat.seen] at hdrop
    split_ifs with hhistory
    · rfl
    · rw [Bool.not_eq_true] at hhistory
      rw [hhistory, Bool.false_or] at hdrop
      cases hkey : itemKey e with
      | none =>
        rw [hkey] at hdrop
        cases hdrop
      | some key =>
        rw [hkey] at hdrop
        dsimp only
        rw [if_pos (by simpa using hdrop)]
  rw [deliver, hmap]
  rfl

lemma deliver_new {m : OmnigentEventMapper} {seen : Finset Text} {e : OmnigentRawEvent ν}
    (hat : StreamAt m history seen) (he : DeltaOf isDatetime messageId e)
    (hnew : droppedForKey history seen e = false) :
    ∃ m' : OmnigentEventMapper, m'.historicalTextByMessageId = m.historicalTextByMessageId ∧
      StreamAt m' history (remember seen (itemKey e)) ∧
      deliver isDatetime m e = ((m'.mapTextDelta isDatetime e).1,(m'.mapTextDelta isDatetime e).2.getD []) := by
  rw [droppedForKey, Bool.or_eq_false_iff] at hnew
  have hmap : m.map isDatetime e = (match itemKey e with
      | none => m.mapByType isDatetime e
      | some key => if key ∈ m.seenItemIds then m.ignore else
        { m with seenItemIds := insert key m.seenItemIds }.mapByType isDatetime e) := by
    unfold map
    exact (if_neg (by simp [he.type])).trans (if_neg (by rw [hat.historical, hnew.1]; exact Bool.false_ne_true))
  have htype : ∀ m' : OmnigentEventMapper, m'.mapByType isDatetime e = m'.mapTextDelta isDatetime e := by
    intro m'
    simp [mapByType, he.type]
  cases hkey : itemKey e with
  | none =>
    refine ⟨m,rfl,hat,?_⟩
    rw [deliver, hmap, hkey, ← htype]
  | some key =>
    have hnotseen : key ∉ m.seenItemIds := by
      rw [hat.seen]
      simpa [hkey] using hnew.2
    refine ⟨{ m with seenItemIds := insert key m.seenItemIds },rfl,?_,?_⟩
    · exact ⟨hat.historical,congrArg (insert key) hat.seen,hat.session,hat.next⟩
    · rw [deliver, hmap, hkey]
      dsimp only
      rw [if_neg hnotseen, ← htype]

/-- The text that a list of raw events shows. -/
def textOf (isDatetime : Text → Bool) (m : OmnigentEventMapper) (es : List (OmnigentRawEvent ν)) : Text :=
  shownText (emitAll (deliver isDatetime) m es).2

lemma textOf_cons (m : OmnigentEventMapper) (e : OmnigentRawEvent ν) (es : List (OmnigentRawEvent ν)) :
    textOf isDatetime m (e :: es) =
      shownText (deliver isDatetime m e).2 ++ textOf isDatetime (deliver isDatetime m e).1 es :=
  shownText_append _ _

/-- Where all new deltas are empty nothing is shown. -/
lemma textOf_empty {m : OmnigentEventMapper} {seen : Finset Text} {es : List (OmnigentRawEvent ν)}
    (hat : StreamAt m history seen) (hes : ∀ e ∈ es, DeltaOf isDatetime messageId e)
    (hempty : shown (newDeltas history seen es) = []) : textOf isDatetime m es = [] := by
  induction es generalizing m seen with
  | nil => rfl
  | cons e es ih =>
    have he := hes e List.mem_cons_self
    have htail : ∀ e' ∈ es, DeltaOf isDatetime messageId e' := fun e' h => hes e' (List.mem_cons_of_mem e h)
    rw [textOf_cons]
    cases hdrop : droppedForKey history seen e with
    | true =>
      rw [newDeltas, if_pos hdrop] at hempty
      rw [deliver_dropped hat he hdrop]
      exact ih hat htail hempty
    | false =>
      rw [newDeltas, if_neg (by simp [hdrop])] at hempty
      rw [shown_eq_nil, List.flatten_cons, List.append_eq_nil_iff, ← shown_eq_nil] at hempty
      obtain ⟨m',-,hat',hdeliver⟩ := deliver_new hat he hdrop
      rw [hdeliver, mapTextDelta_empty m' hempty.1, List.nil_append]
      exact ih (hat'.same (mapTextDelta_same m' e)) htail hempty.2

omit [JsNumber ν] in
/-- The new deltas are among the pieces of the stream. -/
lemma shown_newDeltas_nil {seen : Finset Text} {es : List (OmnigentRawEvent ν)}
    (h : (es.map (fun e => e.delta.getD [])).flatten = []) : shown (newDeltas history seen es) = [] := by
  rw [shown_eq_nil]
  induction es generalizing seen with
  | nil => rfl
  | cons e es ih =>
    rw [List.map_cons, List.flatten_cons, List.append_eq_nil_iff] at h
    rw [newDeltas]
    split
    · exact ih h.2
    · rw [List.flatten_cons, h.1, ih h.2]
      rfl

/-- What a stream shows of a message while `R` of its text is still to come again, where what
the stream has for it is a suffix of `R`. -/
theorem textOf_seeded {m : OmnigentEventMapper} {seen : Finset Text} {R : Text} {es : List (OmnigentRawEvent ν)}
    (hat : StreamAt m history seen) (hes : ∀ e ∈ es, DeltaOf isDatetime messageId e) (hid : messageId ≠ [])
    (hseed : m.historicalTextByMessageId.get? messageId = some R)
    (hsuffix : (es.map (fun e => e.delta.getD [])).flatten <:+ R) :
    (Replayable R (newDeltas history seen es) → textOf isDatetime m es = []) ∧
      ([] ∉ shown (newDeltas history seen es) → textOf isDatetime m es = [] →
        Replayable R (newDeltas history seen es)) := by
  induction es generalizing m seen R with
  | nil => exact ⟨fun _ => rfl,fun _ _ => replayable_of_shown_nil rfl⟩
  | cons e es ih =>
    have he := hes e List.mem_cons_self
    have htail : ∀ e' ∈ es, DeltaOf isDatetime messageId e' := fun e' h => hes e' (List.mem_cons_of_mem e h)
    rw [List.map_cons, List.flatten_cons] at hsuffix
    rw [textOf_cons]
    cases hdrop : droppedForKey history seen e with
    | true =>
      rw [newDeltas, if_pos hdrop, deliver_dropped hat he hdrop]
      exact ih hat htail hseed ((List.suffix_append _ _).trans hsuffix)
    | false =>
      rw [newDeltas, if_neg (by simp [hdrop])]
      obtain ⟨m',hsame,hat',hdeliver⟩ := deliver_new hat he hdrop
      rw [hdeliver]
      have hat'' : StreamAt (m'.mapTextDelta isDatetime e).1 history (remember seen (itemKey e)) :=
        hat'.same (mapTextDelta_same m' e)
      have hseed' : m'.historicalTextByMessageId.get? messageId = some R := hsame ▸ hseed
      have hmessage : Text.truthy e.message_id = some messageId := Text.truthy_eq_some.mpr ⟨he.message,hid⟩
      by_cases hd : e.delta.getD [] = []
      · -- an empty piece: it gives up the seed, which does no harm at the end
        by_cases hlast : shown (newDeltas history (remember seen (itemKey e)) es) = []
        · have htext : textOf isDatetime (m'.mapTextDelta isDatetime e).1 es = [] := textOf_empty hat'' htail hlast
          have hnil : shown (e.delta.getD [] :: newDeltas history (remember seen (itemKey e)) es) = [] :=
            if_pos ⟨hlast,hd⟩
          exact ⟨fun _ => by rw [mapTextDelta_empty m' hd, htext, List.nil_append],
            fun _ _ => replayable_of_shown_nil hnil⟩
        · have hgap : [] ∈ shown (e.delta.getD [] :: newDeltas history (remember seen (itemKey e)) es) := by
            rw [shown, if_neg (fun h => hlast h.1), hd]
            exact List.mem_cons_self
          exact ⟨fun h => absurd hgap h.1,fun h _ => absurd hgap h⟩
      · have hshorter : (e.delta.getD []).length ≤ R.length := by
          have hlen := hsuffix.length_le
          rw [List.length_append] at hlen
          omega
        have hother : ¬ e.delta.getD [] <+: R → ¬ EndsFirst (e.delta.getD []) R →
            shownText ((m'.mapTextDelta isDatetime e).2.getD []) = e.delta.getD [] := by
          intro hp hend
          apply mapTextDelta_other he hmessage hseed' hat'.session hat'.next hp hend
          intro hlonger
          have hsame := hlonger.eq_of_length (le_antisymm hlonger.length_le hshorter)
          exact hp (hsame ▸ List.prefix_rfl)
        by_cases hlast : shown (newDeltas history (remember seen (itemKey e)) es) = []
        · rw [replayable_single hd hlast, textOf_empty hat'' htail hlast, List.append_nil]
          refine ⟨mapTextDelta_last hmessage hseed' hd,?_⟩
          intro _ htext
          by_contra hno
          rw [not_or] at hno
          exact hd (hother hno.1 hno.2 ▸ htext)
        · rw [replayable_cons hd hlast, shown_cons_of_ne hd]
          have hrest : (es.map (fun e => e.delta.getD [])).flatten ≠ [] := fun h => hlast (shown_newDeltas_nil h)
          have hsuffix' := suffix_drop hsuffix
          by_cases hp : e.delta.getD [] <+: R
          · have hleft : R.drop (e.delta.getD []).length ≠ [] := by
              intro h
              rw [h] at hsuffix'
              exact hrest (List.suffix_nil.mp hsuffix')
            have hprefix := @mapTextDelta_leading _ _ isDatetime _ _ _ _ hmessage hseed' hd hp hleft
            obtain ⟨htext,hseeded⟩ := hprefix
            obtain ⟨hif,honly⟩ := ih hat'' htail hseeded hsuffix'
            rw [htext, List.nil_append]
            refine ⟨fun h => hif h.2,?_⟩
            intro hgap htext
            exact ⟨hp,honly (fun hm => hgap (List.mem_cons_of_mem _ hm)) htext⟩
          · have hshown := hother hp (fun hend => hrest (endsFirst_last hsuffix hend))
            refine ⟨fun h => absurd h.1 hp,?_⟩
            intro _ htext
            rw [hshown, List.append_eq_nil_iff] at htext
            exact absurd htext.1 hd

/-- Deltas that name no message are all shown. -/
lemma textOf_unnamed {m : OmnigentEventMapper} {seen : Finset Text} {es : List (OmnigentRawEvent ν)}
    (hat : StreamAt m history seen) (hes : ∀ e ∈ es, DeltaOf isDatetime [] e) :
    textOf isDatetime m es = (newDeltas history seen es).flatten := by
  induction es generalizing m seen with
  | nil => rfl
  | cons e es ih =>
    have he := hes e List.mem_cons_self
    have htail : ∀ e' ∈ es, DeltaOf isDatetime [] e' := fun e' h => hes e' (List.mem_cons_of_mem e h)
    rw [textOf_cons]
    cases hdrop : droppedForKey history seen e with
    | true =>
      rw [newDeltas, if_pos hdrop, deliver_dropped hat he hdrop]
      exact ih hat htail
    | false =>
      rw [newDeltas, if_neg (by simp [hdrop]), List.flatten_cons]
      obtain ⟨m',-,hat',hdeliver⟩ := deliver_new hat he hdrop
      have hunnamed : Text.truthy e.message_id = none := by
        rw [he.message]
        rfl
      have hsame := recordText_same m' none (Text.truthy e.turnId) (e.delta.getD [])
      rw [hdeliver, ih (hat'.same (mapTextDelta_same m' e)) htail, mapTextDelta_unnamed hunnamed,
        createEvent_delta he (hsame.session ▸ hat'.session) (Nat.lt_of_lt_of_le hat'.next hsame.next)]

end Run
end Deltas
end OmnigentEventMapper

section Seeds
variable {ν : Type} [JsNumber ν] {isDatetime : Text → Bool} {sessionId : Text}

namespace HistoryMapping

/-- The texts by message and the item ids are what they were. -/
structure SameSeeds (h h' : HistoryMapping ν) : Prop where
  texts : h'.historicalTextByMessageId = h.historicalTextByMessageId
  seen : h'.seenItemIds = h.seenItemIds

omit [JsNumber ν] in
lemma SameSeeds.trans {h g f : HistoryMapping ν} (hg : SameSeeds h g) (hf : SameSeeds g f) : SameSeeds h f :=
  ⟨hf.texts.trans hg.texts,hf.seen.trans hg.seen⟩

lemma append_same {h h' : HistoryMapping ν} {d : EventDraft ν} (happend : h.append isDatetime sessionId d = some h') :
    SameSeeds h h' := by
  obtain ⟨e,-,-,-,rfl⟩ := append_eq_some happend
  exact ⟨rfl,rfl⟩

lemma ensureStarted_same {h h' : HistoryMapping ν} {item : OmnigentConversationItem ν} {text : List Text}
    (hstart : h.ensureStarted isDatetime sessionId item text = some h') : SameSeeds h h' := by
  unfold ensureStarted at hstart
  split at hstart
  · cases hstart
    exact ⟨rfl,rfl⟩
  · obtain ⟨occurredAt,-,happend⟩ := Option.bind_eq_some_iff.mp hstart
    have hsame := append_same happend
    exact ⟨hsame.texts,hsame.seen⟩

lemma appendTexts_same {h h' : HistoryMapping ν} {item : OmnigentConversationItem ν} {occurredAt : Text}
    {text : List Text} (happend : h.appendTexts isDatetime sessionId item occurredAt text = some h') :
    SameSeeds h h' := by
  unfold appendTexts at happend
  rw [foldlM_eq_run] at happend
  exact run_invariant _ (fun g p g' hg hstep => SameSeeds.trans hg (append_same hstep))
    (⟨rfl,rfl⟩ : SameSeeds h h) happend

/-- An assistant's message sets its text, another item sets none. -/
lemma mapMessage_seeds {h h' : HistoryMapping ν} {item : OmnigentConversationItem ν} {occurredAt : Text}
    {text : List Text} (htype : item.type = .message)
    (hmap : h.mapMessage isDatetime sessionId item occurredAt text = some h') :
    h'.seenItemIds = h.seenItemIds ∧ h'.historicalTextByMessageId = if isAssistantMessage item then
      h.historicalTextByMessageId.set item.id text.flatten else h.historicalTextByMessageId := by
  unfold mapMessage at hmap
  dsimp only at hmap
  split at hmap
  · rename_i hskip
    cases hmap
    have hno : isAssistantMessage item = false := by
      rw [Bool.or_eq_true, Bool.and_eq_true] at hskip
      cases hskip with
      | inl hmeta => simp [isAssistantMessage, hmeta]
      | inr hrole => simp [isAssistantMessage, bne_iff_ne.mp hrole.2]
    rw [hno]
    exact ⟨rfl,rfl⟩
  · rename_i hkeep
    rw [Bool.not_eq_true, Bool.or_eq_false_iff] at hkeep
    obtain ⟨g,hg,hmap⟩ := Option.bind_eq_some_iff.mp hmap
    have hstarted := ensureStarted_same hg
    split at hmap
    · rename_i huser
      cases hmap
      have hno : isAssistantMessage item = false := by
        have hne : ¬ Text.of "user" = Text.of "assistant" := by decide
        simp [isAssistantMessage, huser, hne]
      rw [hno]
      exact ⟨hstarted.seen,hstarted.texts⟩
    · rename_i huser
      obtain ⟨f,hf,hmap⟩ := Option.bind_eq_some_iff.mp hmap
      have hyes : isAssistantMessage item = true := by
        have hrole := hkeep.2
        rw [bne_iff_ne.mpr huser, Bool.true_and] at hrole
        simp [isAssistantMessage, htype, hkeep.1, bne_eq_false_iff_eq.mp hrole]
      have htexts := appendTexts_same hf
      have hend : SameSeeds f h' := by
        split at hmap
        · have hsame := append_same hmap
          exact ⟨hsame.texts,hsame.seen⟩
        · cases hmap
          exact ⟨rfl,rfl⟩
      have hall := htexts.trans hend
      rw [if_pos hyes, hall.texts, hall.seen, ← hstarted.texts]
      exact ⟨hstarted.seen,rfl⟩

lemma mapItem_seeds {h h' : HistoryMapping ν} {item : OmnigentConversationItem ν}
    (hmap : h.mapItem isDatetime sessionId item = some h') :
    h'.seenItemIds = insert item.id h.seenItemIds ∧ h'.historicalTextByMessageId = if isAssistantMessage item then
      h.historicalTextByMessageId.set item.id (contentText item).flatten else h.historicalTextByMessageId := by
  obtain ⟨occurredAt,-,hmap⟩ := Option.bind_eq_some_iff.mp hmap
  dsimp only at hmap
  by_cases htype : item.type = .message
  · rw [htype] at hmap
    exact mapMessage_seeds htype hmap
  · have hno : isAssistantMessage item = false := by simp [isAssistantMessage, htype]
    rw [hno]
    have hsame : SameSeeds { h with seenItemIds := insert item.id h.seenItemIds } h' := by
      split at hmap
      · contradiction
      · unfold mapFunctionCall at hmap
        split at hmap
        · obtain ⟨g,hg,hmap⟩ := Option.bind_eq_some_iff.mp hmap
          have hsame := append_same hmap
          exact (ensureStarted_same hg).trans ⟨hsame.texts,hsame.seen⟩
        · cases hmap
          exact ⟨rfl,rfl⟩
      · unfold mapFunctionCallOutput at hmap
        split at hmap
        · obtain ⟨g,hg,hmap⟩ := Option.bind_eq_some_iff.mp hmap
          have hsame := append_same hmap
          exact (ensureStarted_same hg).trans ⟨hsame.texts,hsame.seen⟩
        · cases hmap
          exact ⟨rfl,rfl⟩
      · unfold mapError at hmap
        split at hmap
        · cases hmap
          exact ⟨rfl,rfl⟩
        · obtain ⟨g,hg,hmap⟩ := Option.bind_eq_some_iff.mp hmap
          have hsame := append_same hmap
          exact (ensureStarted_same hg).trans ⟨hsame.texts,hsame.seen⟩
      · cases hmap
        exact ⟨rfl,rfl⟩
    exact ⟨hsame.seen,hsame.texts⟩

/-- The map of texts has each message's last version. -/
lemma run_mapItem_texts {items : List (OmnigentConversationItem ν)} {h h' : HistoryMapping ν} (messageId : Text)
    (hmap : run (mapItem isDatetime sessionId) h items = some h') :
    h'.historicalTextByMessageId.get? messageId =
      (persistedText items messageId).or (h.historicalTextByMessageId.get? messageId) := by
  induction items generalizing h with
  | nil =>
    cases hmap
    rfl
  | cons item items ih =>
    obtain ⟨g,hg,hmap⟩ := (run_cons_eq_some _).mp hmap
    have htexts := (mapItem_seeds hg).2
    rw [ih hmap, htexts, persistedText, persistedText, List.filter_cons]
    by_cases hthis : (isAssistantMessage item && decide (item.id = messageId)) = true
    · rw [if_pos hthis, List.getLast?_cons]
      rw [Bool.and_eq_true, decide_eq_true_eq] at hthis
      rw [if_pos hthis.1, hthis.2, Dictionary.get?_set_self]
      cases (List.filter (fun item => isAssistantMessage item && decide (item.id = messageId)) items).getLast? <;> rfl
    · rw [if_neg hthis]
      congr 1
      split
      · rename_i hassistant
        rw [hassistant, Bool.true_and, decide_eq_true_eq] at hthis
        exact Dictionary.get?_set_of_ne _ _ (Ne.symm hthis)
      · rfl

lemma run_mapItem_seen {items : List (OmnigentConversationItem ν)} {h h' : HistoryMapping ν}
    (hmap : run (mapItem isDatetime sessionId) h items = some h') :
    h'.seenItemIds = (items.map (·.id)).toFinset ∪ h.seenItemIds := by
  induction items generalizing h with
  | nil =>
    cases hmap
    simp
  | cons item items ih =>
    obtain ⟨g,hg,hmap⟩ := (run_cons_eq_some _).mp hmap
    rw [ih hmap, (mapItem_seeds hg).1]
    simp [Finset.union_insert]

end HistoryMapping

/-- A stream that sends again a suffix of the text `H` of a persisted message, in any pieces and
under any new event keys. -/
structure Resent (isDatetime : Text → Bool) (items : List (OmnigentConversationItem ν)) (messageId H : Text)
    (rawEvents : List (OmnigentRawEvent ν)) : Prop where
  persisted : persistedText items messageId = some H
  deltas : ∀ e ∈ rawEvents, DeltaOf isDatetime messageId e
  suffix : (rawEvents.map (fun e => e.delta.getD [])).flatten <:+ H

/-- The deltas of a stream that get to the text of history. -/
def deltasAfter (items : List (OmnigentConversationItem ν)) (rawEvents : List (OmnigentRawEvent ν)) : List Text :=
  newDeltas (items.map (·.id)).toFinset (items.map (·.id)).toFinset rawEvents

/-- The message is named, or nothing of it is sent, and what is sent goes on from the start of
its text, except that the last piece may be where its first match ends what is left. -/
def KeptBack (items : List (OmnigentConversationItem ν)) (messageId H : Text)
    (rawEvents : List (OmnigentRawEvent ν)) : Prop :=
  (messageId = [] → shown (deltasAfter items rawEvents) = []) ∧ Replayable H (deltasAfter items rawEvents)

/-- A stream that sends again text of a persisted message shows none of it where the pieces are
kept back, and, where no empty piece stands before another one, only there. -/
theorem resent_text_hidden_iff (isDatetime : Text → Bool) (sessionId : Text) (hsession : sessionId ≠ [])
    (items : List (OmnigentConversationItem ν)) (afterSequence : Option ℕ) (mapped : MappedOmnigentHistory ν)
    (hmapped : mapOmnigentConversationHistory isDatetime sessionId items afterSequence = some mapped)
    (startingSequence : ℕ) (hstarting : 0 < startingSequence) (messageId H : Text)
    (rawEvents : List (OmnigentRawEvent ν)) (hresent : Resent isDatetime items messageId H rawEvents) :
    (KeptBack items messageId H rawEvents →
      shownText (liveEvents isDatetime sessionId mapped startingSequence rawEvents) = []) ∧
    ([] ∉ shown (deltasAfter items rawEvents) →
      shownText (liveEvents isDatetime sessionId mapped startingSequence rawEvents) = [] →
        KeptBack items messageId H rawEvents) := by
  obtain ⟨h,hfold,rfl⟩ := Option.map_eq_some_iff.mp hmapped
  rw [foldlM_eq_run] at hfold
  have hseen : h.seenItemIds = (items.map (·.id)).toFinset := by
    rw [HistoryMapping.run_mapItem_seen hfold]
    exact Finset.union_empty _
  have htexts := HistoryMapping.run_mapItem_texts messageId hfold
  rw [hresent.persisted] at htexts
  have hat : OmnigentEventMapper.StreamAt (newOmnigentEventMapper sessionId
      ((h.toMapped sessionId afterSequence).mapperOptions startingSequence))
      (items.map (·.id)).toFinset (items.map (·.id)).toFinset := ⟨hseen,hseen,hsession,hstarting⟩
  by_cases hid : messageId = []
  · subst hid
    have htext := OmnigentEventMapper.textOf_unnamed hat hresent.deltas
    change (KeptBack items [] H rawEvents → OmnigentEventMapper.textOf isDatetime _ rawEvents = []) ∧
      (_ → OmnigentEventMapper.textOf isDatetime _ rawEvents = [] → KeptBack items [] H rawEvents)
    rw [htext, ← shown_eq_nil]
    exact ⟨fun hk => hk.1 rfl,fun _ hnil => ⟨fun _ => hnil,replayable_of_shown_nil hnil⟩⟩
  · obtain ⟨hif,honly⟩ := OmnigentEventMapper.textOf_seeded hat hresent.deltas hid htexts hresent.suffix
    exact ⟨fun hk => hif hk.2,fun hgap htext => ⟨fun h => absurd h hid,honly hgap htext⟩⟩

end Seeds

/-- A live delta of the message `m1`. -/
def deltaEvent (id delta : String) : OmnigentRawEvent ℕ :=
  { turnEvent id "t1" .responseOutputTextDelta with
    message_id := some (Text.of "m1"), delta := some (Text.of delta) }

lemma deltaEvent_deltaOf {id delta : String} (h : Text.of id ≠ []) :
    DeltaOf (· == startOfEpoch) (Text.of "m1") (deltaEvent id delta) where
  type := rfl
  message := rfl
  id := h
  turn := by
    change optionalNonempty (some (Text.of "t1")) = true
    decide
  time := beq_self_eq_true startOfEpoch

/-- The history of one message, `banana`. -/
def bananaItems : List (OmnigentConversationItem ℕ) := [assistantItem "m1" "t1" "banana"]

lemma bananaItems_mapped : ∃ mapped, mapOmnigentConversationHistory (· == startOfEpoch) (Text.of "s") bananaItems
    none = some mapped :=
  Option.isSome_iff_exists.mp (by decide +kernel)

theorem resent_text_hidden_iff_banana :
    ∃ mapped, mapOmnigentConversationHistory (· == startOfEpoch) (Text.of "s") bananaItems none = some mapped ∧
      shownText (liveEvents (· == startOfEpoch) (Text.of "s") mapped 3
        [deltaEvent "e1" "ban",deltaEvent "e2" "ana"]) = [] := by
  obtain ⟨mapped,hmapped⟩ := bananaItems_mapped
  have hresent : Resent (· == startOfEpoch) bananaItems (Text.of "m1") (Text.of "banana")
      [deltaEvent "e1" "ban",deltaEvent "e2" "ana"] := by
    refine ⟨by decide +kernel,?_,by decide +kernel⟩
    intro e he
    rw [List.mem_cons, List.mem_singleton] at he
    cases he with
    | inl h => exact h ▸ deltaEvent_deltaOf (by decide)
    | inr h => exact h ▸ deltaEvent_deltaOf (by decide)
  have hkept : KeptBack bananaItems (Text.of "m1") (Text.of "banana") [deltaEvent "e1" "ban",deltaEvent "e2" "ana"] :=
    ⟨by decide +kernel,by decide +kernel,Or.inl (by decide +kernel)⟩
  exact ⟨mapped,hmapped,(resent_text_hidden_iff (· == startOfEpoch) (Text.of "s") (by decide) bananaItems none mapped
    hmapped 3 (by decide) (Text.of "m1") (Text.of "banana") _ hresent).1 hkept⟩

/-- A suffix is shown again when its first match in the message is not at the end, and when it
comes in two pieces. -/
theorem resent_text_shown_again :
    ∃ mapped, mapOmnigentConversationHistory (· == startOfEpoch) (Text.of "s") bananaItems none = some mapped ∧
      Resent (· == startOfEpoch) bananaItems (Text.of "m1") (Text.of "banana") [deltaEvent "e1" "ana"] ∧
      shownText (liveEvents (· == startOfEpoch) (Text.of "s") mapped 3 [deltaEvent "e1" "ana"]) = Text.of "ana" ∧
      Resent (· == startOfEpoch) bananaItems (Text.of "m1") (Text.of "banana")
        [deltaEvent "e1" "n",deltaEvent "e2" "a"] ∧
      shownText (liveEvents (· == startOfEpoch) (Text.of "s") mapped 3
        [deltaEvent "e1" "n",deltaEvent "e2" "a"]) = Text.of "na" := by
  have heval : (mapOmnigentConversationHistory (· == startOfEpoch) (Text.of "s") bananaItems none).map (fun mapped =>
      (shownText (liveEvents (· == startOfEpoch) (Text.of "s") mapped 3 [deltaEvent "e1" "ana"]),
        shownText (liveEvents (· == startOfEpoch) (Text.of "s") mapped 3
          [deltaEvent "e1" "n",deltaEvent "e2" "a"]))) = some (Text.of "ana",Text.of "na") := by
    decide +kernel
  obtain ⟨mapped,hmapped,hshown⟩ := Option.map_eq_some_iff.mp heval
  rw [Prod.mk.injEq] at hshown
  refine ⟨mapped,hmapped,⟨by decide +kernel,?_,by decide +kernel⟩,hshown.1,⟨by decide +kernel,?_,by decide +kernel⟩,
    hshown.2⟩
  · intro e he
    rw [List.mem_singleton.mp he]
    exact deltaEvent_deltaOf (by decide)
  · intro e he
    rw [List.mem_cons, List.mem_singleton] at he
    cases he with
    | inl h => exact h ▸ deltaEvent_deltaOf (by decide)
    | inr h => exact h ▸ deltaEvent_deltaOf (by decide)

end OmniagentPlus.OmnigentTransport
