import OmniagentPlus.OmnigentTransport.ReconnectText

/-! The messages of one turn in a live stream: what the mapper emits of each of them, in any
interleaving of their deltas and finished items. -/
namespace OmniagentPlus.OmnigentTransport
open OmniagentPlus.Foundation OmniagentPlus.CoreContracts

/-- What a live event says of its message. -/
inductive MessagePart
  | delta (text : Text)
  | done (text : Text)
  deriving DecidableEq

section Parts
variable {ν : Type}

/-- The finished message of an `output_item.done` event. -/
def donePart (item : JsonRecord ν) : Option (Text × MessagePart) :=
  if Json.asString (Json.field item "type") = some (Text.of "message") then
    (Text.truthy (Json.asString (Json.field item "id"))).map fun messageId => (messageId,.done (assistantItemText item))
  else none

/-- The message that an event of the turn is of, and what it says of it. -/
def messagePart (turnId : Text) (e : OmnigentRawEvent ν) : Option (Text × MessagePart) :=
  if Text.truthy e.turnId = some turnId then
    match e.type with
    | .stream .responseOutputTextDelta =>
      (Text.truthy e.message_id).map fun messageId => (messageId,.delta (e.delta.getD []))
    | .stream .responseOutputItemDone => e.item.bind donePart
    | _ => none
  else none

def partOf (turnId messageId : Text) (e : OmnigentRawEvent ν) : Option MessagePart :=
  (messagePart turnId e).bind fun p => if p.1 = messageId then some p.2 else none

/-- What a list of events says of a message. -/
def partsOf (turnId messageId : Text) (es : List (OmnigentRawEvent ν)) : List MessagePart :=
  es.filterMap (partOf turnId messageId)

/-- Deltas only, or deltas of a front of the text that the message is finished with. -/
def WellSent (parts : List MessagePart) : Prop :=
  ∃ deltas : List Text, parts = deltas.map .delta ∨
    ∃ text, parts = deltas.map .delta ++ [.done text] ∧ deltas.flatten <+: text

/-- An interleaving of the live events of the messages of a turn, under distinct keys. -/
structure MessageStream (isDatetime : Text → Bool) (turnId : Text) (es : List (OmnigentRawEvent ν)) : Prop where
  parts : ∀ e ∈ es, (messagePart turnId e).isSome = true
  valid : ∀ e ∈ es, e.id ≠ [] ∧ isDatetime e.occurredAt = true
  keys : (es.filterMap OmnigentEventMapper.itemKey).Nodup
  wellSent : ∀ messageId, WellSent (partsOf turnId messageId es)

/-- Nothing of the turn and its messages has come to the mapper before. -/
structure FreshTurn (m : OmnigentEventMapper) (turnId : Text) (es : List (OmnigentRawEvent ν)) : Prop where
  session : m.sessionId ≠ []
  next : 0 < m.nextSequence
  seen : ∀ e ∈ es, ∀ key, OmnigentEventMapper.itemKey e = some key → key ∉ m.seenItemIds
  historical : ∀ e ∈ es, ∀ key, Text.truthy e.itemId = some key → key ∉ m.historicalItemIds
  pending : m.pendingMessageIdsByTurnId.get? turnId = none
  unidentified : m.emittedUnidentifiedTextByTurnId.get? turnId = none
  historicalMessages : m.historicalMessagesByTurnId.get? turnId = none
  historicalText : ∀ messageId, partsOf turnId messageId es ≠ [] → m.historicalTextByMessageId.get? messageId = none
  emitted : ∀ messageId, partsOf turnId messageId es ≠ [] → m.emittedTextByMessageId.get? messageId = none

/-- The message is finished without a delta of its own while an unfinished one of the turn has shown a
text that agrees with its text as far as both go. -/
def TakenForAnother (turnId : Text) (before : List (OmnigentRawEvent ν)) (messageId text : Text) : Prop :=
  text ≠ [] ∧ partsOf turnId messageId before = [] ∧ ∃ (other : Text) (deltas : List Text),
    partsOf turnId other before = deltas.map .delta ∧ deltas.flatten ≠ [] ∧
      (deltas.flatten <+: text ∨ text <+: deltas.flatten)

theorem messagePart_eq_some_delta {turnId messageId delta : Text} {e : OmnigentRawEvent ν}
    (h : messagePart turnId e = some (messageId,.delta delta)) :
    Text.truthy e.turnId = some turnId ∧ e.type = .stream .responseOutputTextDelta ∧
      Text.truthy e.message_id = some messageId ∧ e.delta.getD [] = delta := by
  unfold messagePart at h
  split_ifs at h with hturn
  split at h
  · rename_i htype
    obtain ⟨other,hid,heq⟩ := Option.map_eq_some_iff.mp h
    cases heq
    exact ⟨hturn,htype,hid,rfl⟩
  · obtain ⟨item,-,hdone⟩ := Option.bind_eq_some_iff.mp h
    unfold donePart at hdone
    split_ifs at hdone
    obtain ⟨other,-,heq⟩ := Option.map_eq_some_iff.mp hdone
    cases heq
  · cases h

theorem messagePart_eq_some_done {turnId messageId text : Text} {e : OmnigentRawEvent ν}
    (h : messagePart turnId e = some (messageId,.done text)) :
    Text.truthy e.turnId = some turnId ∧ e.type = .stream .responseOutputItemDone ∧ ∃ item, e.item = some item ∧
      Json.asString (Json.field item "type") = some (Text.of "message") ∧
      Text.truthy (Json.asString (Json.field item "id")) = some messageId ∧ assistantItemText item = text := by
  unfold messagePart at h
  split_ifs at h with hturn
  split at h
  · obtain ⟨other,-,heq⟩ := Option.map_eq_some_iff.mp h
    cases heq
  · rename_i htype
    obtain ⟨item,hitem,hdone⟩ := Option.bind_eq_some_iff.mp h
    unfold donePart at hdone
    split_ifs at hdone with hmessage
    obtain ⟨other,hid,heq⟩ := Option.map_eq_some_iff.mp hdone
    cases heq
    exact ⟨hturn,htype,item,hitem,hmessage,hid,rfl⟩
  · cases h

theorem partOf_eq_some {turnId messageId : Text} {part : MessagePart} {e : OmnigentRawEvent ν} :
    partOf turnId messageId e = some part ↔ messagePart turnId e = some (messageId,part) := by
  unfold partOf
  cases h : messagePart turnId e with
  | none => simp
  | some p =>
    obtain ⟨other,part'⟩ := p
    rw [Option.bind_some, Option.some.injEq, Prod.mk.injEq]
    by_cases heq : other = messageId <;> simp [heq]

theorem partsOf_append (turnId messageId : Text) (l r : List (OmnigentRawEvent ν)) :
    partsOf turnId messageId (l ++ r) = partsOf turnId messageId l ++ partsOf turnId messageId r :=
  List.filterMap_append

theorem partsOf_snoc (turnId messageId : Text) (l : List (OmnigentRawEvent ν)) {e : OmnigentRawEvent ν} {other : Text}
    {part : MessagePart} (h : messagePart turnId e = some (other,part)) : partsOf turnId messageId (l ++ [e]) =
      partsOf turnId messageId l ++ if other = messageId then [part] else [] := by
  rw [partsOf_append]
  congr 1
  split_ifs with heq
  · subst heq
    simp [partsOf, partOf_eq_some.mpr h]
  · simp [partsOf, partOf, h, heq]

section WellSent
variable {l r : List MessagePart} {deltas : List Text} {text : Text}

lemma done_notMem_deltas : MessagePart.done text ∉ deltas.map MessagePart.delta := by
  simp

/-- Before a part that is not the first come deltas only. -/
lemma WellSent.before {part : MessagePart} (h : WellSent (l ++ part :: r)) : ∃ deltas : List Text, l = deltas.map .delta := by
  obtain ⟨deltas,heq | ⟨text,heq,-⟩⟩ := h
  · obtain ⟨front,back,rfl,hfront,-⟩ := List.append_eq_map_iff.mp heq
    exact ⟨front,hfront.symm⟩
  · obtain ⟨after,hafter,-⟩ | ⟨after,rfl,hafter⟩ := List.append_eq_append_iff.mp heq
    · obtain ⟨front,back,rfl,hfront,-⟩ := List.map_eq_append_iff.mp hafter
      exact ⟨front,hfront.symm⟩
    · cases after with
      | nil => exact ⟨deltas,List.append_nil _⟩
      | cons a after =>
        have hlength := congrArg List.length hafter
        simp at hlength

/-- A message is finished once, behind deltas of a front of its text. -/
lemma WellSent.done (h : WellSent (l ++ .done text :: r)) :
    r = [] ∧ ∃ deltas : List Text, l = deltas.map .delta ∧ deltas.flatten <+: text := by
  obtain ⟨deltas,heq | ⟨other,heq,hfront⟩⟩ := h
  · have hmem : MessagePart.done text ∈ deltas.map MessagePart.delta := by
      rw [← heq]
      simp
    exact absurd hmem done_notMem_deltas
  · obtain rfl | ⟨r',last,rfl⟩ := List.eq_nil_or_concat r
    · obtain ⟨rfl,hlast⟩ := List.append_inj' heq rfl
      cases hlast
      exact ⟨rfl,deltas,rfl,hfront⟩
    · rw [List.concat_eq_append, ← List.cons_append, ← List.append_assoc] at heq
      obtain ⟨hinit,-⟩ := List.append_inj' heq rfl
      have hmem : MessagePart.done text ∈ deltas.map MessagePart.delta := by
        rw [← hinit]
        simp
      exact absurd hmem done_notMem_deltas

end WellSent
end Parts

namespace OmnigentEventMapper
section Steps
variable {ν : Type}

def pendingOf (m : OmnigentEventMapper) (turnId : Text) : List Text := (m.pendingMessageIdsByTurnId.get? turnId).getD []

/-- What an event of a message of the turn leaves as it is. -/
structure SameTurn (turnId messageId : Text) (e : OmnigentRawEvent ν) (m m' : OmnigentEventMapper) : Prop where
  session : m'.sessionId = m.sessionId
  next : m.nextSequence ≤ m'.nextSequence
  seen : m'.seenItemIds = remember m.seenItemIds (itemKey e)
  historical : m'.historicalItemIds = m.historicalItemIds
  historicalMessages : m'.historicalMessagesByTurnId = m.historicalMessagesByTurnId
  historicalText : m'.historicalTextByMessageId = m.historicalTextByMessageId
  unidentified : m.emittedUnidentifiedTextByTurnId.get? turnId = none →
    m'.emittedUnidentifiedTextByTurnId.get? turnId = none
  emitted : ∀ other, other ≠ messageId → m'.emittedTextByMessageId.get? other = m.emittedTextByMessageId.get? other

/-- The mapper after the key of an event is noted. -/
def noted (m : OmnigentEventMapper) (e : OmnigentRawEvent ν) : OmnigentEventMapper :=
  { m with seenItemIds := remember m.seenItemIds (itemKey e) }

lemma noted_same (turnId messageId : Text) (m : OmnigentEventMapper) (e : OmnigentRawEvent ν) :
    SameTurn turnId messageId e m (m.noted e) :=
  ⟨rfl,le_rfl,rfl,rfl,rfl,rfl,id,fun _ _ => rfl⟩

/-- An event whose keys the mapper has not met. -/
structure NewEvent (isDatetime : Text → Bool) (m : OmnigentEventMapper) (e : OmnigentRawEvent ν) : Prop where
  id : e.id ≠ []
  time : isDatetime e.occurredAt = true
  session : m.sessionId ≠ []
  next : 0 < m.nextSequence
  seen : ∀ key, itemKey e = some key → key ∉ m.seenItemIds
  historical : ∀ key, Text.truthy e.itemId = some key → key ∉ m.historicalItemIds

variable [JsNumber ν] {isDatetime : Text → Bool} {m : OmnigentEventMapper} {e : OmnigentRawEvent ν}
  {turnId messageId : Text}

lemma map_new (hnew : NewEvent isDatetime m e) (htype : e.type = .stream .responseOutputTextDelta ∨
    e.type = .stream .responseOutputItemDone) : m.map isDatetime e = (m.noted e).mapByType isDatetime e := by
  have hkind : ¬(e.type = .stream .responseElicitationResolved ∨ e.type = .stream .sessionPermissionMode ∨
      e.type = .stream .sessionTitle) := by
    obtain h | h := htype <;> simp [h]
  have hhistory : ¬(Text.truthy e.itemId).any (fun key => decide (key ∈ m.historicalItemIds)) = true := by
    rw [Option.any_eq_true]
    intro h
    obtain ⟨key,hkey,hin⟩ := h
    exact hnew.historical key hkey (of_decide_eq_true hin)
  unfold map
  rw [if_neg hkind, if_neg hhistory]
  cases hkey : itemKey e with
  | none =>
    rw [noted, hkey]
    rfl
  | some key =>
    dsimp only
    rw [if_neg (hnew.seen key hkey), noted, hkey]
    rfl

/-- A text event that the schema takes. -/
lemma createEvent_shown (delta : Text) (hsession : m.sessionId ≠ []) (hnext : 0 < m.nextSequence) {eventId : Text}
    (hid : eventId ≠ []) (htime : isDatetime e.occurredAt = true) (hturn : Text.truthy e.turnId = some turnId) :
    m.createEvent isDatetime (⟨eventId,e.occurredAt,.textDelta delta,false,e.turnId⟩ : EventDraft ν) =
      ({ m with nextSequence := m.nextSequence + 1 },
        some [⟨eventId,m.nextSequence,m.sessionId,e.turnId,e.occurredAt,.textDelta delta,.metadataOnly,false⟩]) := by
  obtain ⟨hsome,hne⟩ := Text.truthy_eq_some.mp hturn
  have hoptional : optionalNonempty e.turnId = true := by
    rw [hsome]
    simpa [optionalNonempty] using hne
  have hcreate : createRuntimeEvent (ν := ν) isDatetime ⟨eventId,m.nextSequence,m.sessionId,e.turnId,e.occurredAt,
      .textDelta delta,.metadataOnly,false⟩ = some ⟨eventId,m.nextSequence,m.sessionId,e.turnId,e.occurredAt,
      .textDelta delta,.metadataOnly,false⟩ := by
    rw [createRuntimeEvent_eq_some]
    simp [RuntimeEventEnvelope.parses, RuntimeEventPayload.parses, hid, hoptional, htime, hsession, hnext]
  rw [createEvent, hcreate]

omit [JsNumber ν] in
lemma recordText_named (m : OmnigentEventMapper) (messageId turnId delta : Text) (e : OmnigentRawEvent ν) :
    SameTurn turnId messageId e m ((m.noted e).recordText (some messageId) (some turnId) delta) ∧
      ((m.noted e).recordText (some messageId) (some turnId) delta).emittedTextByMessageId =
        appendText m.emittedTextByMessageId messageId delta ∧
      ((m.noted e).recordText (some messageId) (some turnId) delta).pendingOf turnId =
        if messageId ∈ m.pendingOf turnId then m.pendingOf turnId else m.pendingOf turnId ++ [messageId] := by
  have hother : ∀ other, other ≠ messageId →
      (appendText m.emittedTextByMessageId messageId delta).get? other = m.emittedTextByMessageId.get? other :=
    fun other hne => Dictionary.get?_set_of_ne _ _ hne
  by_cases h : messageId ∈ ((m.noted e).pendingMessageIdsByTurnId.get? turnId).getD []
  · rw [recordText, if_pos h, if_pos (show messageId ∈ m.pendingOf turnId from h)]
    exact ⟨⟨rfl,le_rfl,rfl,rfl,rfl,rfl,id,hother⟩,rfl,rfl⟩
  · rw [recordText, if_neg h, if_neg (show messageId ∉ m.pendingOf turnId from h)]
    refine ⟨⟨rfl,le_rfl,rfl,rfl,rfl,rfl,id,hother⟩,rfl,?_⟩
    change ((Dictionary.set _ turnId _).get? turnId).getD [] = _
    rw [Dictionary.get?_set_self]
    rfl

/-- A delta is shown as it comes, and remembered under its message. -/
lemma deliver_delta (hnew : NewEvent isDatetime m e) {delta : Text}
    (hpart : messagePart turnId e = some (messageId,.delta delta))
    (hmessages : m.historicalMessagesByTurnId.get? turnId = none)
    (htext : m.historicalTextByMessageId.get? messageId = none) :
    SameTurn turnId messageId e m (deliver isDatetime m e).1 ∧ shownText (deliver isDatetime m e).2 = delta ∧
      (deliver isDatetime m e).1.emittedTextByMessageId.get? messageId =
        some ((m.emittedTextByMessageId.get? messageId).getD [] ++ delta) ∧
      (deliver isDatetime m e).1.pendingOf turnId =
        if messageId ∈ m.pendingOf turnId then m.pendingOf turnId else m.pendingOf turnId ++ [messageId] := by
  obtain ⟨hturn,htype,hid,hdelta⟩ := messagePart_eq_some_delta hpart
  have hclaim : (m.noted e).claimHistoricalMessage e messageId delta = (m.noted e,none) := by
    unfold claimHistoricalMessage
    rw [hturn]
    simp [noted, hmessages, htext]
  have hleft : ((m.noted e).leftToShow e messageId) = (m.noted e,some delta) := by
    rw [leftToShow, hdelta, hclaim]
    rfl
  have hmap : m.map isDatetime e = ((m.noted e).recordText (some messageId) (some turnId) delta).createEvent isDatetime
      ⟨e.id,e.occurredAt,.textDelta delta,false,e.turnId⟩ := by
    rw [map_new hnew (Or.inl htype)]
    have hby : (m.noted e).mapByType isDatetime e = (m.noted e).mapTextDelta isDatetime e := by
      simp [mapByType, htype]
    rw [hby, mapTextDelta_shown hid (by rw [hleft]), hleft, hturn]
  obtain ⟨hsame,hemitted,hpending⟩ := recordText_named m messageId turnId delta e
  have hcreate := createEvent_shown (m := (m.noted e).recordText (some messageId) (some turnId) delta) delta
    (hsame.session ▸ hnew.session) (Nat.lt_of_lt_of_le hnew.next hsame.next) hnew.id hnew.time hturn
  rw [deliver, hmap, hcreate]
  refine ⟨⟨hsame.session,hsame.next.trans (Nat.le_succ _),hsame.seen,hsame.historical,hsame.historicalMessages,
    hsame.historicalText,hsame.unidentified,hsame.emitted⟩,by simp [shownText, deltaText],?_,hpending⟩
  rw [hemitted]
  exact Dictionary.get?_set_self _ _ _

/-- The mapper once a finished message is noted. -/
def finish (m : OmnigentEventMapper) (turnId messageId text : Text) (pendingMessageIndex : Option ℕ) :
    OmnigentEventMapper :=
  { m with
    pendingMessageIdsByTurnId := match pendingMessageIndex with
      | none => m.pendingMessageIdsByTurnId
      | some index =>
        if ((m.pendingOf turnId).eraseIdx index).isEmpty then m.pendingMessageIdsByTurnId.erase turnId
        else m.pendingMessageIdsByTurnId.set turnId ((m.pendingOf turnId).eraseIdx index)
    emittedTextByMessageId := m.emittedTextByMessageId.set messageId text
    emittedUnidentifiedTextByTurnId := m.emittedUnidentifiedTextByTurnId.erase turnId }

/-- The mapper once a text of the turn is noted. -/
def appendTurnText (m : OmnigentEventMapper) (turnId text : Text) : OmnigentEventMapper :=
  { m with emittedTextByTurnId := appendText m.emittedTextByTurnId turnId text }

lemma finish_pendingOf (m : OmnigentEventMapper) (turnId messageId text : Text) (pendingMessageIndex : Option ℕ) :
    (m.finish turnId messageId text pendingMessageIndex).pendingOf turnId =
      pendingMessageIndex.elim (m.pendingOf turnId) fun index => (m.pendingOf turnId).eraseIdx index := by
  cases pendingMessageIndex with
  | none => rfl
  | some index =>
    unfold pendingOf finish
    dsimp only [Option.elim_some]
    split_ifs with hempty
    · rw [Dictionary.get?_erase, if_pos rfl]
      exact (List.isEmpty_iff.mp hempty).symm
    · rw [Dictionary.get?_set_self]
      rfl

/-- A finished message shows what it still has to emit. -/
lemma deliver_done (hnew : NewEvent isDatetime m e) {text : Text} (htext : text ≠ [])
    (hpart : messagePart turnId e = some (messageId,.done text)) :
    SameTurn turnId messageId e m (deliver isDatetime m e).1 ∧
      shownText (deliver isDatetime m e).2 = (m.messageItemDelta (some messageId) turnId text).1 ∧
      (deliver isDatetime m e).1.pendingOf turnId = (m.messageItemDelta (some messageId) turnId text).2.elim
        (m.pendingOf turnId) fun index => (m.pendingOf turnId).eraseIdx index := by
  obtain ⟨hturn,htype,item,hitem,hmessage,hid,rfl⟩ := messagePart_eq_some_done hpart
  have hitem : (m.noted e).mapByType isDatetime e = (m.noted e).mapMessageItem isDatetime e turnId item := by
    have hby : (m.noted e).mapByType isDatetime e = (m.noted e).mapOutputItem isDatetime e := by
      simp [mapByType, htype]
    rw [hby, mapOutputItem, hitem, hturn]
    exact if_pos hmessage
  have hsame : SameTurn turnId messageId e m ((m.noted e).finish turnId messageId (assistantItemText item)
      (m.messageItemDelta (some messageId) turnId (assistantItemText item)).2) :=
    ⟨rfl,le_rfl,rfl,rfl,rfl,rfl,fun _ => (Dictionary.get?_erase _ _ _).trans (if_pos rfl),
      fun _ hne => Dictionary.get?_set_of_ne _ _ hne⟩
  have hpending := finish_pendingOf (m.noted e) turnId messageId (assistantItemText item)
    (m.messageItemDelta (some messageId) turnId (assistantItemText item)).2
  have hmap : m.map isDatetime e =
      if (m.messageItemDelta (some messageId) turnId (assistantItemText item)).1.isEmpty then
        ((m.noted e).finish turnId messageId (assistantItemText item)
          (m.messageItemDelta (some messageId) turnId (assistantItemText item)).2).ignore
      else (appendTurnText ((m.noted e).finish turnId messageId (assistantItemText item)
          (m.messageItemDelta (some messageId) turnId (assistantItemText item)).2) turnId
          (m.messageItemDelta (some messageId) turnId (assistantItemText item)).1).createEvent isDatetime
        ⟨e.id ++ Text.of ":text",e.occurredAt,
          .textDelta (m.messageItemDelta (some messageId) turnId (assistantItemText item)).1,false,e.turnId⟩ := by
    have hfound : (m.noted e).messageItemDelta (some messageId) turnId (assistantItemText item) =
        m.messageItemDelta (some messageId) turnId (assistantItemText item) := rfl
    rw [map_new hnew (Or.inr htype), hitem, mapMessageItem, if_neg (by simpa using htext), hid]
    dsimp only
    rw [hfound]
    generalize m.messageItemDelta (some messageId) turnId (assistantItemText item) = found
    obtain ⟨delta,pendingMessageIndex⟩ := found
    cases pendingMessageIndex <;> rfl
  generalize m.messageItemDelta (some messageId) turnId (assistantItemText item) = found at hsame hpending hmap ⊢
  rw [deliver, hmap]
  split_ifs with hempty
  · exact ⟨hsame,(List.isEmpty_iff.mp hempty).symm,hpending⟩
  · have hid' : e.id ++ Text.of ":text" ≠ [] := fun hnil => hnew.id (List.append_eq_nil_iff.mp hnil).1
    have hcreate := createEvent_shown (m := appendTurnText ((m.noted e).finish turnId messageId (assistantItemText item)
      found.2) turnId found.1) found.1 hnew.session hnew.next hid' hnew.time hturn
    rw [hcreate]
    exact ⟨⟨hsame.session,Nat.le_succ _,hsame.seen,hsame.historical,hsame.historicalMessages,
      hsame.historicalText,hsame.unidentified,hsame.emitted⟩,by simp [shownText, deltaText],hpending⟩

/-- A finished message without text is ignored. -/
lemma deliver_empty (hnew : NewEvent isDatetime m e) (hpart : messagePart turnId e = some (messageId,.done [])) :
    deliver isDatetime m e = (m.noted e,[]) := by
  obtain ⟨hturn,htype,item,hitem,hmessage,-,htext⟩ := messagePart_eq_some_done hpart
  have hby : (m.noted e).mapByType isDatetime e = (m.noted e).mapOutputItem isDatetime e := by
    simp [mapByType, htype]
  rw [deliver, map_new hnew (Or.inr htype), hby, mapOutputItem, hitem, hturn]
  dsimp only
  rw [if_pos hmessage, mapMessageItem, htext]
  rfl

omit [JsNumber ν] in
/-- A message with deltas of its own still has to emit what they leave of its text. -/
lemma messageItemDelta_own {text emitted : Text} (hown : m.emittedTextByMessageId.get? messageId = some emitted)
    (hfront : emitted <+: text) : m.messageItemDelta (some messageId) turnId text =
      (text.drop emitted.length,(m.pendingOf turnId).findIdx? fun id => decide (id = messageId)) := by
  simp [messageItemDelta, hown, List.isPrefixOf_iff_prefix.mpr hfront, pendingOf]

/-- A pending message whose text could be the front of a text, or go beyond it. -/
def agrees (m : OmnigentEventMapper) (text messageId : Text) : Bool :=
  let pendingText := (m.emittedTextByMessageId.get? messageId).getD []
  !pendingText.isEmpty && (pendingText.isPrefixOf text || text.isPrefixOf pendingText)

/-- What a text goes on with after the emitted text. -/
def restOf (emitted text : Text) : Text :=
  if emitted.isPrefixOf text then text.drop emitted.length else if text.isPrefixOf emitted then [] else text

omit [JsNumber ν] in
/-- A message without a delta is taken for the first pending one that agrees with it. -/
lemma messageItemDelta_unseen (text : Text) (hown : m.emittedTextByMessageId.get? messageId = none) :
    m.messageItemDelta (some messageId) turnId text =
      (restOf (((((m.pendingOf turnId).findIdx? (m.agrees text)).bind fun index =>
          m.emittedTextByMessageId.get? (((m.pendingOf turnId)[index]?).getD [])).or
        (m.emittedUnidentifiedTextByTurnId.get? turnId)).getD []) text,
        (m.pendingOf turnId).findIdx? (m.agrees text)) := by
  have hdirect : (some messageId).bind m.emittedTextByMessageId.get? = none := hown
  unfold messageItemDelta
  rw [hdirect]
  rfl

omit [JsNumber ν] in
/-- It is emitted whole if there is none. -/
lemma messageItemDelta_whole {text : Text} (hown : m.emittedTextByMessageId.get? messageId = none)
    (hturn : m.emittedUnidentifiedTextByTurnId.get? turnId = none)
    (hnone : ∀ id ∈ m.pendingOf turnId, m.agrees text id = false) :
    m.messageItemDelta (some messageId) turnId text = (text,none) := by
  have hfind : (m.pendingOf turnId).findIdx? (m.agrees text) = none := List.findIdx?_eq_none_iff.mpr hnone
  rw [messageItemDelta_unseen text hown, hfind, hturn]
  rfl

omit [JsNumber ν] in
/-- Otherwise some of it is not emitted. -/
lemma messageItemDelta_shorter {text : Text} (hown : m.emittedTextByMessageId.get? messageId = none)
    (htext : text ≠ []) {id : Text} (hin : id ∈ m.pendingOf turnId) (hagrees : m.agrees text id = true) :
    (m.messageItemDelta (some messageId) turnId text).1 ≠ text := by
  cases hfind : (m.pendingOf turnId).findIdx? (m.agrees text) with
  | none =>
    have hfalse := List.findIdx?_eq_none_iff.mp hfind id hin
    rw [hagrees] at hfalse
    cases hfalse
  | some index =>
    obtain ⟨hlt,hfound,-⟩ := List.findIdx?_eq_some_iff_getElem.mp hfind
    rw [messageItemDelta_unseen text hown, hfind, Option.bind_some, List.getElem?_eq_getElem hlt, Option.getD_some]
    generalize (m.pendingOf turnId)[index] = other at hfound
    unfold agrees at hfound
    cases hother : m.emittedTextByMessageId.get? other with
    | none => simp [hother] at hfound
    | some shown =>
      simp only [hother, Option.getD_some, Bool.and_eq_true, Bool.not_eq_true', Bool.or_eq_true] at hfound
      obtain ⟨hshown,hboth⟩ := hfound
      rw [Option.some_or, Option.getD_some, restOf]
      have hlong : 0 < shown.length := List.length_pos_iff.mpr (by simpa using hshown)
      have hpos : 0 < text.length := List.length_pos_iff.mpr htext
      split_ifs with hfront hback
      · intro heq
        have hlength := congrArg List.length heq
        rw [List.length_drop] at hlength
        omega
      · exact htext.symm
      · obtain h | h := hboth
        · exact absurd h hfront
        · exact absurd h hback

end Steps

section Run
variable {ν : Type} {isDatetime : Text → Bool} {m : OmnigentEventMapper} {turnId : Text}

/-- The mapper after the events `before`, with `after` still to come. -/
structure Upto (turnId : Text) (before after : List (OmnigentRawEvent ν)) (m : OmnigentEventMapper) : Prop where
  session : m.sessionId ≠ []
  next : 0 < m.nextSequence
  seen : ∀ e ∈ after, ∀ key, itemKey e = some key → key ∉ m.seenItemIds
  historical : ∀ e ∈ after, ∀ key, Text.truthy e.itemId = some key → key ∉ m.historicalItemIds
  unidentified : m.emittedUnidentifiedTextByTurnId.get? turnId = none
  historicalMessages : m.historicalMessagesByTurnId.get? turnId = none
  historicalText : ∀ messageId, partsOf turnId messageId after ≠ [] → m.historicalTextByMessageId.get? messageId = none
  emitted : ∀ messageId (deltas : List Text), partsOf turnId messageId before = deltas.map .delta →
    (deltas = [] → partsOf turnId messageId after ≠ [] → m.emittedTextByMessageId.get? messageId = none) ∧
      (deltas ≠ [] → m.emittedTextByMessageId.get? messageId = some deltas.flatten)
  nodup : (m.pendingOf turnId).Nodup
  pending : ∀ messageId ∈ m.pendingOf turnId, (∃ deltas : List Text, deltas ≠ [] ∧
    partsOf turnId messageId before = deltas.map .delta) ∨ m.emittedTextByMessageId.get? messageId = some []

lemma upto_nil {es : List (OmnigentRawEvent ν)} (h : FreshTurn m turnId es) : Upto turnId [] es m where
  session := h.session
  next := h.next
  seen := h.seen
  historical := h.historical
  unidentified := h.unidentified
  historicalMessages := h.historicalMessages
  historicalText := h.historicalText
  emitted := by
    intro messageId deltas hparts
    have hnil : deltas = [] := List.map_eq_nil_iff.mp hparts.symm
    exact ⟨fun _ => h.emitted messageId,fun hne => absurd hnil hne⟩
  nodup := by simp [pendingOf, h.pending]
  pending := by simp [pendingOf, h.pending]

variable {before after : List (OmnigentRawEvent ν)} {e : OmnigentRawEvent ν} {messageId : Text}

/-- What an event leaves as it is carries over; the texts and the pending messages remain to be shown. -/
lemma Upto.step {m' : OmnigentEventMapper} {part : MessagePart} (h : Upto turnId before (e :: after) m)
    (hkeys : ((e :: after).filterMap itemKey).Nodup) (hpart : messagePart turnId e = some (messageId,part))
    (hsame : SameTurn turnId messageId e m m')
    (hemitted : ∀ deltas : List Text, partsOf turnId messageId (before ++ [e]) = deltas.map .delta →
      m'.emittedTextByMessageId.get? messageId = some deltas.flatten)
    (hnodup : (m'.pendingOf turnId).Nodup)
    (hpending : ∀ id ∈ m'.pendingOf turnId, id ≠ messageId → id ∈ m.pendingOf turnId)
    (hown : messageId ∈ m'.pendingOf turnId → (∃ deltas : List Text, deltas ≠ [] ∧
      partsOf turnId messageId (before ++ [e]) = deltas.map .delta) ∨ m'.emittedTextByMessageId.get? messageId = some []) :
    Upto turnId (before ++ [e]) after m' := by
  have hother : ∀ id, id ≠ messageId → partsOf turnId id (before ++ [e]) = partsOf turnId id before := by
    intro id hne
    rw [partsOf_snoc turnId id before hpart, if_neg fun heq => hne heq.symm, List.append_nil]
  have hparts : partsOf turnId messageId (before ++ [e]) ≠ [] := by
    rw [partsOf_snoc turnId messageId before hpart, if_pos rfl]
    simp
  have hafter : ∀ id, partsOf turnId id after ≠ [] → partsOf turnId id (e :: after) ≠ [] := by
    intro id hne hnil
    have hsplit := partsOf_append turnId id [e] after
    rw [List.singleton_append, hnil] at hsplit
    exact hne (List.append_eq_nil_iff.mp hsplit.symm).2
  refine ⟨hsame.session ▸ h.session,Nat.lt_of_lt_of_le h.next hsame.next,?_,?_,hsame.unidentified h.unidentified,?_,?_,?_,
    hnodup,?_⟩
  · intro e' he' key hkey hin
    rw [hsame.seen] at hin
    cases hnoted : itemKey e with
    | none =>
      rw [hnoted] at hin
      exact h.seen e' (List.mem_cons_of_mem e he') key hkey hin
    | some noted =>
      rw [hnoted, remember, Finset.mem_insert] at hin
      obtain rfl | hin := hin
      · rw [List.filterMap_cons_some hnoted] at hkeys
        exact (List.nodup_cons.mp hkeys).1 (List.mem_filterMap.mpr ⟨e',he',hkey⟩)
      · exact h.seen e' (List.mem_cons_of_mem e he') key hkey hin
  · intro e' he'
    rw [hsame.historical]
    exact h.historical e' (List.mem_cons_of_mem e he')
  · rw [hsame.historicalMessages]
    exact h.historicalMessages
  · intro id hne
    rw [hsame.historicalText]
    exact h.historicalText id (hafter id hne)
  · intro id deltas hdeltas
    by_cases hid : id = messageId
    · subst hid
      refine ⟨fun hnil => ?_,fun _ => hemitted deltas hdeltas⟩
      rw [hnil] at hdeltas
      exact absurd hdeltas hparts
    · rw [hother id hid] at hdeltas
      rw [hsame.emitted id hid]
      obtain ⟨hnone,hsome⟩ := h.emitted id deltas hdeltas
      exact ⟨fun hnil hne => hnone hnil (hafter id hne),hsome⟩
  · intro id hin
    by_cases hid : id = messageId
    · subst hid
      exact hown hin
    · rw [hother id hid, hsame.emitted id hid]
      exact h.pending id (hpending id hin hid)

/-- Every unfinished message of which something came is pending. -/
def Complete (turnId : Text) (before : List (OmnigentRawEvent ν)) (m : OmnigentEventMapper) : Prop :=
  ∀ (messageId : Text) (deltas : List Text), deltas ≠ [] → partsOf turnId messageId before = deltas.map .delta →
    messageId ∈ m.pendingOf turnId

lemma Upto.newEvent (h : Upto turnId before (e :: after) m) (hvalid : e.id ≠ [] ∧ isDatetime e.occurredAt = true) :
    NewEvent isDatetime m e :=
  ⟨hvalid.1,hvalid.2,h.session,h.next,h.seen e List.mem_cons_self,h.historical e List.mem_cons_self⟩

lemma parts_cons_ne_nil {part : MessagePart} (hpart : messagePart turnId e = some (messageId,part)) :
    partsOf turnId messageId (e :: after) ≠ [] := by
  rw [partsOf, List.filterMap_cons_some (partOf_eq_some.mpr hpart)]
  exact List.cons_ne_nil _ _

/-- A pending message that agrees with a text is one that the text is taken for. -/
lemma Upto.agrees_taken (h : Upto turnId before (e :: after) m) {text : Text} (htext : text ≠ [])
    (hnone : partsOf turnId messageId before = []) {id : Text} (hin : id ∈ m.pendingOf turnId)
    (hagrees : m.agrees text id = true) : TakenForAnother turnId before messageId text := by
  simp only [agrees, Bool.and_eq_true, Bool.not_eq_true', Bool.or_eq_true, List.isPrefixOf_iff_prefix] at hagrees
  obtain ⟨hne,hboth⟩ := hagrees
  obtain ⟨deltas,hdeltas,hparts⟩ | hempty := h.pending id hin
  · rw [(h.emitted id deltas hparts).2 hdeltas, Option.getD_some] at hne hboth
    exact ⟨htext,hnone,id,deltas,hparts,by simpa using hne,hboth⟩
  · rw [hempty] at hne
    cases hne

lemma Upto.taken_agrees (h : Upto turnId before (e :: after) m) (hcomplete : Complete turnId before m) {text : Text}
    (htaken : TakenForAnother turnId before messageId text) :
    ∃ id ∈ m.pendingOf turnId, m.agrees text id = true := by
  obtain ⟨-,-,other,deltas,hparts,hne,hboth⟩ := htaken
  have hdeltas : deltas ≠ [] := fun hnil => hne (by rw [hnil]; rfl)
  refine ⟨other,hcomplete other deltas hdeltas hparts,?_⟩
  simp only [agrees, Bool.and_eq_true, Bool.not_eq_true', Bool.or_eq_true, List.isPrefixOf_iff_prefix]
  rw [(h.emitted other deltas hparts).2 hdeltas, Option.getD_some]
  exact ⟨by simpa using hne,hboth⟩

/-- A message of which nothing came is not pending. -/
lemma Upto.not_pending {part : MessagePart} (h : Upto turnId before (e :: after) m)
    (hpart : messagePart turnId e = some (messageId,part)) (hnone : partsOf turnId messageId before = []) :
    messageId ∉ m.pendingOf turnId := by
  intro hin
  obtain ⟨deltas,hdeltas,hparts⟩ | hempty := h.pending messageId hin
  · rw [hnone] at hparts
    exact hdeltas (List.map_eq_nil_iff.mp hparts.symm)
  · rw [(h.emitted messageId [] hnone).1 rfl (parts_cons_ne_nil hpart)] at hempty
    cases hempty

variable [JsNumber ν]

/-- A delta is shown, and its message is pending. -/
lemma Upto.delta (h : Upto turnId before (e :: after) m) (hkeys : ((e :: after).filterMap itemKey).Nodup)
    (hvalid : e.id ≠ [] ∧ isDatetime e.occurredAt = true) {delta : Text} {deltas : List Text}
    (hpart : messagePart turnId e = some (messageId,.delta delta))
    (hparts : partsOf turnId messageId before = deltas.map .delta) :
    Upto turnId (before ++ [e]) after (deliver isDatetime m e).1 ∧ shownText (deliver isDatetime m e).2 = delta ∧
      (Complete turnId before m → Complete turnId (before ++ [e]) (deliver isDatetime m e).1) := by
  obtain ⟨hsame,hshown,hemitted,hpending⟩ := deliver_delta (h.newEvent hvalid) hpart h.historicalMessages
    (h.historicalText messageId (parts_cons_ne_nil hpart))
  have hold : (m.emittedTextByMessageId.get? messageId).getD [] = deltas.flatten := by
    by_cases hdeltas : deltas = []
    · rw [(h.emitted messageId deltas hparts).1 hdeltas (parts_cons_ne_nil hpart), hdeltas]
      rfl
    · rw [(h.emitted messageId deltas hparts).2 hdeltas]
      rfl
  have hnext : partsOf turnId messageId (before ++ [e]) = (deltas ++ [delta]).map .delta := by
    rw [partsOf_snoc turnId messageId before hpart, if_pos rfl, hparts, List.map_append]
    rfl
  have hmem : ∀ id, id ∈ (deliver isDatetime m e).1.pendingOf turnId ↔ id ∈ m.pendingOf turnId ∨ id = messageId := by
    intro id
    rw [hpending]
    split_ifs with hin
    · exact ⟨Or.inl,fun hor => hor.elim (fun hid => hid) (fun hid => hid ▸ hin)⟩
    · rw [List.mem_append, List.mem_singleton]
  refine ⟨h.step hkeys hpart hsame ?_ ?_ ?_ ?_,hshown,?_⟩
  · intro others hothers
    rw [hnext] at hothers
    rw [hemitted, hold, ← List.map_injective_iff.mpr (fun _ _ heq => MessagePart.delta.inj heq) hothers]
    simp
  · rw [hpending]
    split_ifs with hin
    · exact h.nodup
    · refine List.nodup_append.mpr ⟨h.nodup,List.nodup_singleton _,fun a ha b hb heq => hin ?_⟩
      rwa [← List.mem_singleton.mp hb, ← heq]
  · intro id hin hne
    exact ((hmem id).mp hin).resolve_right hne
  · exact fun _ => Or.inl ⟨deltas ++ [delta],by simp,hnext⟩
  · intro hcomplete id others hne hothers
    rw [hmem]
    by_cases hid : messageId = id
    · exact Or.inr hid.symm
    · rw [partsOf_snoc turnId id before hpart, if_neg hid, List.append_nil] at hothers
      exact Or.inl (hcomplete id others hne hothers)

/-- The pending messages once a finished one, or the one it was taken for, is struck off. -/
lemma mem_struck {ids : List Text} {found : Option ℕ} {id : Text}
    (h : id ∈ found.elim ids fun index => ids.eraseIdx index) : id ∈ ids := by
  cases found with
  | none => exact h
  | some index => exact List.mem_of_mem_eraseIdx h

lemma nodup_struck {ids : List Text} (h : ids.Nodup) (found : Option ℕ) :
    (found.elim ids fun index => ids.eraseIdx index).Nodup := by
  cases found with
  | none => exact h
  | some index => exact (List.eraseIdx_sublist ids index).nodup h

/-- Striking off the place of an id strikes off the id and no other. -/
lemma mem_struck_own {ids : List Text} (h : ids.Nodup) (messageId id : Text) :
    (id ∈ (ids.findIdx? fun other => decide (other = messageId)).elim ids fun index => ids.eraseIdx index) ↔
      id ∈ ids ∧ id ≠ messageId := by
  have herase : ((ids.findIdx? fun other => decide (other = messageId)).elim ids fun index => ids.eraseIdx index) =
      ids.eraseP fun other => decide (other = messageId) := by
    rw [List.eraseP_eq_eraseIdx]
    cases ids.findIdx? fun other => decide (other = messageId) <;> rfl
  have hsame : (ids.eraseP fun other => decide (other = messageId)) = ids.erase messageId := by
    rw [List.erase_eq_eraseP']
    congr 1
    funext other
    exact (beq_eq_decide _ _).symm
  rw [herase, hsame, h.mem_erase_iff, and_comm]

/-- A finished message without text leaves all as it is. -/
lemma Upto.empty (h : Upto turnId before (e :: after) m) (hkeys : ((e :: after).filterMap itemKey).Nodup)
    (hvalid : e.id ≠ [] ∧ isDatetime e.occurredAt = true) {deltas : List Text}
    (hpart : messagePart turnId e = some (messageId,.done []))
    (hparts : partsOf turnId messageId before = deltas.map .delta) (hfront : deltas.flatten <+: []) :
    Upto turnId (before ++ [e]) after (deliver isDatetime m e).1 ∧ shownText (deliver isDatetime m e).2 = [] ∧
      (Complete turnId before m → Complete turnId (before ++ [e]) (deliver isDatetime m e).1) := by
  have hnext : ∀ others : List Text, partsOf turnId messageId (before ++ [e]) ≠ others.map .delta := by
    intro others heq
    have hmem : MessagePart.done [] ∈ others.map MessagePart.delta := by
      rw [← heq, partsOf_snoc turnId messageId before hpart, if_pos rfl]
      simp
    exact done_notMem_deltas hmem
  rw [deliver_empty (h.newEvent hvalid) hpart]
  refine ⟨h.step hkeys hpart (noted_same turnId messageId m e) ?_ h.nodup (fun _ hin _ => hin) ?_,rfl,?_⟩
  · intro others hothers
    exact absurd hothers (hnext others)
  · intro hin
    obtain ⟨others,hothers,heq⟩ | hempty := h.pending messageId hin
    · rw [hparts] at heq
      rw [← List.map_injective_iff.mpr (fun _ _ heq => MessagePart.delta.inj heq) heq] at hothers
      refine Or.inr ?_
      change m.emittedTextByMessageId.get? messageId = some []
      rw [(h.emitted messageId deltas hparts).2 hothers, List.prefix_nil.mp hfront]
    · exact Or.inr hempty
  · intro hcomplete id others hne hothers
    by_cases hid : messageId = id
    · subst hid
      exact absurd hothers (hnext others)
    · rw [partsOf_snoc turnId id before hpart, if_neg hid, List.append_nil] at hothers
      exact hcomplete id others hne hothers

/-- A finished message shows the rest of its text, unless it is taken for another one. -/
lemma Upto.done (h : Upto turnId before (e :: after) m) (hkeys : ((e :: after).filterMap itemKey).Nodup)
    (hvalid : e.id ≠ [] ∧ isDatetime e.occurredAt = true) {text : Text} {deltas : List Text} (htext : text ≠ [])
    (hpart : messagePart turnId e = some (messageId,.done text))
    (hparts : partsOf turnId messageId before = deltas.map .delta) (hfront : deltas.flatten <+: text) :
    Upto turnId (before ++ [e]) after (deliver isDatetime m e).1 ∧
      (¬ TakenForAnother turnId before messageId text →
        shownText (deliver isDatetime m e).2 = text.drop deltas.flatten.length) ∧
      (Complete turnId before m → TakenForAnother turnId before messageId text →
        shownText (deliver isDatetime m e).2 ≠ text) ∧
      (¬ TakenForAnother turnId before messageId text → Complete turnId before m →
        Complete turnId (before ++ [e]) (deliver isDatetime m e).1) := by
  obtain ⟨hsame,hshown,hpending⟩ := deliver_done (h.newEvent hvalid) htext hpart
  have hnext : ∀ others : List Text, partsOf turnId messageId (before ++ [e]) ≠ others.map .delta := by
    intro others heq
    have hmem : MessagePart.done text ∈ others.map MessagePart.delta := by
      rw [← heq, partsOf_snoc turnId messageId before hpart, if_pos rfl]
      simp
    exact done_notMem_deltas hmem
  have hupto : messageId ∉ (deliver isDatetime m e).1.pendingOf turnId →
      Upto turnId (before ++ [e]) after (deliver isDatetime m e).1 := by
    intro hnot
    refine h.step hkeys hpart hsame (fun others hothers => absurd hothers (hnext others)) ?_ ?_ fun hin => absurd hin hnot
    · rw [hpending]
      exact nodup_struck h.nodup _
    · intro id hin _
      rw [hpending] at hin
      exact mem_struck hin
  have hcomplete : (∀ id, id ∈ m.pendingOf turnId → id ≠ messageId → id ∈ (deliver isDatetime m e).1.pendingOf turnId) →
      Complete turnId before m → Complete turnId (before ++ [e]) (deliver isDatetime m e).1 := by
    intro hkept hcomplete id others hne hothers
    by_cases hid : messageId = id
    · subst hid
      exact absurd hothers (hnext others)
    · rw [partsOf_snoc turnId id before hpart, if_neg hid, List.append_nil] at hothers
      exact hkept id (hcomplete id others hne hothers) fun heq => hid heq.symm
  by_cases hdeltas : deltas = []
  · -- without a delta of its own the message may be taken for a pending one
    subst hdeltas
    have hnone : partsOf turnId messageId before = [] := hparts
    have hown := (h.emitted messageId [] hparts).1 rfl (parts_cons_ne_nil hpart)
    have hnot := h.not_pending hpart hnone
    have hwhole : ¬ TakenForAnother turnId before messageId text →
        m.messageItemDelta (some messageId) turnId text = (text,none) := by
      intro htaken
      refine messageItemDelta_whole hown h.unidentified fun id hin => ?_
      exact Bool.eq_false_iff.mpr fun hagrees => htaken (h.agrees_taken htext hnone hin hagrees)
    refine ⟨hupto ?_,fun htaken => ?_,fun hcomplete' htaken => ?_,fun htaken => hcomplete fun id hin _ => ?_⟩
    · rw [hpending]
      exact fun hin => hnot (mem_struck hin)
    · rw [hshown, hwhole htaken]
      rfl
    · obtain ⟨id,hin,hagrees⟩ := h.taken_agrees hcomplete' htaken
      rw [hshown]
      exact messageItemDelta_shorter hown htext hin hagrees
    · rw [hpending, hwhole htaken]
      exact hin
  · have hown := (h.emitted messageId deltas hparts).2 hdeltas
    have hrest := @messageItemDelta_own m turnId messageId text _ hown hfront
    have hnottaken : ¬ TakenForAnother turnId before messageId text := by
      intro htaken
      rw [htaken.2.1] at hparts
      exact hdeltas (List.map_eq_nil_iff.mp hparts.symm)
    rw [hrest] at hshown hpending
    refine ⟨hupto ?_,fun _ => hshown,fun _ htaken => absurd htaken hnottaken,fun _ => hcomplete fun id hin hne => ?_⟩
    · rw [hpending, mem_struck_own h.nodup]
      exact fun hboth => hboth.2 rfl
    · rw [hpending, mem_struck_own h.nodup]
      exact ⟨hin,hne⟩

/-- The mapper after a list of events. -/
def mapperAfter (isDatetime : Text → Bool) (m : OmnigentEventMapper) (es : List (OmnigentRawEvent ν)) :
    OmnigentEventMapper :=
  (emitAll (deliver isDatetime) m es).1

/-- The text emitted at the events of a message. -/
def emittedFor (isDatetime : Text → Bool) (turnId messageId : Text) :
    OmnigentEventMapper → List (OmnigentRawEvent ν) → Text
  | _, [] => []
  | m, e :: es =>
    (if (partOf turnId messageId e).isSome then shownText (deliver isDatetime m e).2 else []) ++
      emittedFor isDatetime turnId messageId (deliver isDatetime m e).1 es

lemma mapperAfter_append (m : OmnigentEventMapper) (l r : List (OmnigentRawEvent ν)) :
    mapperAfter isDatetime m (l ++ r) = mapperAfter isDatetime (mapperAfter isDatetime m l) r := by
  rw [mapperAfter, emitAll_append]
  rfl

lemma emittedFor_append (messageId : Text) (m : OmnigentEventMapper) (l r : List (OmnigentRawEvent ν)) :
    emittedFor isDatetime turnId messageId m (l ++ r) = emittedFor isDatetime turnId messageId m l ++
      emittedFor isDatetime turnId messageId (mapperAfter isDatetime m l) r := by
  induction l generalizing m with
  | nil => rfl
  | cons e l ih =>
    rw [List.cons_append, emittedFor, emittedFor, ih, List.append_assoc]
    rfl

lemma emittedFor_nil (m : OmnigentEventMapper) {es : List (OmnigentRawEvent ν)} (h : partsOf turnId messageId es = []) :
    emittedFor isDatetime turnId messageId m es = [] := by
  induction es generalizing m with
  | nil => rfl
  | cons e es ih =>
    cases hpart : partOf turnId messageId e with
    | none =>
      rw [partsOf, List.filterMap_cons_none hpart] at h
      rw [emittedFor, hpart, ih _ h]
      rfl
    | some part =>
      rw [partsOf, List.filterMap_cons_some hpart] at h
      cases h

variable {es : List (OmnigentRawEvent ν)}

omit [JsNumber ν] in
lemma wellSent_at (hstream : MessageStream isDatetime turnId es) (heq : es = before ++ e :: after) {part : MessagePart}
    (hpart : messagePart turnId e = some (messageId,part)) :
    WellSent (partsOf turnId messageId before ++ part :: partsOf turnId messageId after) := by
  have h := hstream.wellSent messageId
  rwa [heq, partsOf_append, partsOf, partsOf, List.filterMap_cons_some (partOf_eq_some.mpr hpart)] at h

/-- One event of a stream. -/
lemma stream_step (hstream : MessageStream isDatetime turnId es) (heq : es = before ++ e :: after)
    (h : Upto turnId before (e :: after) m) :
    Upto turnId (before ++ [e]) after (deliver isDatetime m e).1 ∧
      ((∀ messageId text, messagePart turnId e = some (messageId,.done text) →
          ¬ TakenForAnother turnId before messageId text) →
        Complete turnId before m → Complete turnId (before ++ [e]) (deliver isDatetime m e).1) ∧
      (∀ messageId delta, messagePart turnId e = some (messageId,.delta delta) →
        shownText (deliver isDatetime m e).2 = delta) ∧
      ∀ messageId text (deltas : List Text), messagePart turnId e = some (messageId,.done text) →
        partsOf turnId messageId before = deltas.map .delta →
        (¬ TakenForAnother turnId before messageId text →
          shownText (deliver isDatetime m e).2 = text.drop deltas.flatten.length) ∧
        (Complete turnId before m → TakenForAnother turnId before messageId text →
          shownText (deliver isDatetime m e).2 ≠ text) := by
  have hin : e ∈ es := by
    rw [heq]
    simp
  have hkeys : ((e :: after).filterMap itemKey).Nodup := by
    have hall := hstream.keys
    rw [heq, List.filterMap_append] at hall
    exact (List.nodup_append.mp hall).2.1
  obtain ⟨⟨messageId,part⟩,hpart⟩ := Option.isSome_iff_exists.mp (hstream.parts e hin)
  have hwell := wellSent_at hstream heq hpart
  cases part with
  | delta delta =>
    obtain ⟨deltas,hdeltas⟩ := hwell.before
    obtain ⟨hupto,hshown,hcomplete⟩ := h.delta hkeys (hstream.valid e hin) hpart hdeltas
    refine ⟨hupto,fun _ => hcomplete,?_,?_⟩
    · intro other delta' hpart'
      rw [hpart] at hpart'
      cases hpart'
      exact hshown
    · intro other text others hpart'
      rw [hpart] at hpart'
      cases hpart'
  | done text =>
    obtain ⟨-,deltas,hdeltas,hfront⟩ := hwell.done
    by_cases htext : text = []
    · subst htext
      obtain ⟨hupto,hshown,hcomplete⟩ := h.empty hkeys (hstream.valid e hin) hpart hdeltas hfront
      refine ⟨hupto,fun _ => hcomplete,?_,?_⟩
      · intro other delta hpart'
        rw [hpart] at hpart'
        cases hpart'
      · intro other text others hpart' _
        rw [hpart] at hpart'
        cases hpart'
        rw [List.drop_nil]
        exact ⟨fun _ => hshown,fun _ htaken => absurd rfl htaken.1⟩
    · obtain ⟨hupto,hrest,hshort,hcomplete⟩ := h.done hkeys (hstream.valid e hin) htext hpart hdeltas hfront
      refine ⟨hupto,fun hno => hcomplete (hno messageId text hpart),?_,?_⟩
      · intro other delta hpart'
        rw [hpart] at hpart'
        cases hpart'
      · intro other text' others hpart' hothers
        rw [hpart] at hpart'
        cases hpart'
        rw [hdeltas] at hothers
        rw [← List.map_injective_iff.mpr (fun _ _ heq => MessagePart.delta.inj heq) hothers]
        exact ⟨hrest,hshort⟩

lemma upto_run (hstream : MessageStream isDatetime turnId es) (hfresh : FreshTurn m turnId es)
    (heq : es = before ++ after) : Upto turnId before after (mapperAfter isDatetime m before) := by
  induction before using List.reverseRecOn generalizing after with
  | nil =>
    subst heq
    exact upto_nil hfresh
  | append_singleton before e ih =>
    rw [List.append_assoc, List.singleton_append] at heq
    rw [mapperAfter_append]
    exact (stream_step hstream heq (ih heq)).1

/-- Up to the first message that is taken for another all unfinished ones are pending. -/
lemma complete_run (hstream : MessageStream isDatetime turnId es) (hfresh : FreshTurn m turnId es)
    (heq : es = before ++ after)
    (hno : ∀ (front back : List (OmnigentRawEvent ν)) (e : OmnigentRawEvent ν) (messageId text : Text),
      es = front ++ e :: back → front.length < before.length → messagePart turnId e = some (messageId,.done text) →
      ¬ TakenForAnother turnId front messageId text) :
    Complete turnId before (mapperAfter isDatetime m before) := by
  induction before using List.reverseRecOn generalizing after with
  | nil =>
    intro id deltas hne hparts
    exact absurd (List.map_eq_nil_iff.mp hparts.symm) hne
  | append_singleton before e ih =>
    rw [List.append_assoc, List.singleton_append] at heq
    rw [mapperAfter_append]
    have hlast : before.length < (before ++ [e]).length := by simp
    refine (stream_step hstream heq (upto_run hstream hfresh heq)).2.1 (fun id text => hno before after e id text heq hlast)
      (ih heq fun front back e' id text hsplit hlt => hno front back e' id text hsplit (hlt.trans hlast))

/-- Until it is finished a message shows its deltas. -/
lemma emittedFor_deltas (hstream : MessageStream isDatetime turnId es) (hfresh : FreshTurn m turnId es)
    (heq : es = before ++ after) {deltas : List Text} (hparts : partsOf turnId messageId before = deltas.map .delta) :
    emittedFor isDatetime turnId messageId m before = deltas.flatten := by
  induction before using List.reverseRecOn generalizing after deltas with
  | nil =>
    have hnil : deltas = [] := List.map_eq_nil_iff.mp hparts.symm
    rw [hnil]
    rfl
  | append_singleton before e ih =>
    rw [List.append_assoc, List.singleton_append] at heq
    rw [emittedFor_append]
    cases hpart : partOf turnId messageId e with
    | none =>
      have hlast : partsOf turnId messageId [e] = [] := List.filterMap_cons_none hpart
      rw [partsOf_append, hlast, List.append_nil] at hparts
      rw [ih heq hparts, emittedFor_nil _ hlast, List.append_nil]
    | some part =>
      have hmessage := partOf_eq_some.mp hpart
      rw [partsOf_snoc turnId messageId before hmessage, if_pos rfl] at hparts
      obtain ⟨front,back,rfl,hfront,hback⟩ := List.append_eq_map_iff.mp hparts
      obtain ⟨delta,rfl,rfl⟩ := List.map_eq_singleton_iff.mp hback
      have hshown := (stream_step hstream heq (upto_run hstream hfresh heq)).2.2.1 messageId delta hmessage
      rw [ih heq hfront.symm, emittedFor, hpart, Option.isSome_some, if_pos rfl, hshown, emittedFor]
      simp

/-- A finished message shows its deltas, and what is emitted when it is finished. -/
lemma emittedFor_finished (hstream : MessageStream isDatetime turnId es) (hfresh : FreshTurn m turnId es)
    (heq : es = before ++ e :: after) {text : Text} (hpart : messagePart turnId e = some (messageId,.done text)) :
    ∃ deltas : List Text, partsOf turnId messageId before = deltas.map .delta ∧ deltas.flatten <+: text ∧
      emittedFor isDatetime turnId messageId m es =
        deltas.flatten ++ shownText (deliver isDatetime (mapperAfter isDatetime m before) e).2 := by
  obtain ⟨hafter,deltas,hdeltas,hfront⟩ := (wellSent_at hstream heq hpart).done
  refine ⟨deltas,hdeltas,hfront,?_⟩
  have hbefore := emittedFor_deltas hstream hfresh heq hdeltas
  rw [heq, emittedFor_append, hbefore, emittedFor, partOf_eq_some.mpr hpart, Option.isSome_some, if_pos rfl,
    emittedFor_nil _ hafter, List.append_nil]

/-- A message's deltas and its finished item come to exactly its text, once and in order, unless it is
finished without a delta and taken for another; where that happens to a message, not all come out. -/
theorem messages_reconstructed (hstream : MessageStream isDatetime turnId es) (hfresh : FreshTurn m turnId es) :
    (∀ before e after messageId text, es = before ++ e :: after → messagePart turnId e = some (messageId,.done text) →
      ¬ TakenForAnother turnId before messageId text → emittedFor isDatetime turnId messageId m es = text) ∧
    ((∀ e ∈ es, ∀ messageId text, messagePart turnId e = some (messageId,.done text) →
        emittedFor isDatetime turnId messageId m es = text) →
      ∀ before e after messageId text, es = before ++ e :: after →
        messagePart turnId e = some (messageId,.done text) → ¬ TakenForAnother turnId before messageId text) := by
  constructor
  · intro before e after messageId text heq hpart hno
    obtain ⟨deltas,hdeltas,hfront,hemitted⟩ := emittedFor_finished hstream hfresh heq hpart
    have hshown := ((stream_step hstream heq (upto_run hstream hfresh heq)).2.2.2 messageId text deltas hpart hdeltas).1 hno
    obtain ⟨rest,rfl⟩ := hfront
    rw [hemitted, hshown, List.drop_left]
  · intro hexact before
    induction hlength : before.length using Nat.strong_induction_on generalizing before with
    | _ n ih =>
      intro e after messageId text heq hpart htaken
      have hin : e ∈ es := by
        rw [heq]
        simp
      have hcomplete : Complete turnId before (mapperAfter isDatetime m before) := by
        refine complete_run hstream hfresh heq fun front back e' id text' hsplit hlt => ?_
        exact ih front.length (hlength ▸ hlt) front rfl e' back id text' hsplit
      obtain ⟨deltas,hdeltas,-,hemitted⟩ := emittedFor_finished hstream hfresh heq hpart
      have hshort := ((stream_step hstream heq (upto_run hstream hfresh heq)).2.2.2 messageId text deltas hpart hdeltas).2
        hcomplete htaken
      rw [htaken.2.1] at hdeltas
      rw [List.map_eq_nil_iff.mp hdeltas.symm] at hemitted
      exact hshort (hemitted.symm.trans (hexact e hin messageId text hpart))

end Run
end OmnigentEventMapper

open OmnigentEventMapper

/-- A live delta of a message. -/
def liveDelta (id messageId delta : String) : OmnigentRawEvent ℕ :=
  { turnEvent id "t" .responseOutputTextDelta with
    message_id := some (Text.of messageId), delta := some (Text.of delta) }

/-- A finished message. -/
def liveDone (id messageId text : String) : OmnigentRawEvent ℕ :=
  { turnEvent id "t" .responseOutputItemDone with
    item := some [(Text.of "type",.string (Text.of "message")),(Text.of "id",.string (Text.of messageId)),
      (Text.of "role",.string (Text.of "assistant")),
      (Text.of "content",.array [.object [(Text.of "text",.string (Text.of text))]])] }

/-- The mapper of a new session. -/
def liveMapper : OmnigentEventMapper := newOmnigentEventMapper (Text.of "s") {}

lemma liveMapper_fresh (turnId : Text) (es : List (OmnigentRawEvent ℕ)) : FreshTurn liveMapper turnId es where
  session := by decide
  next := by decide
  seen := fun _ _ _ _ hin => absurd hin (Finset.notMem_empty _)
  historical := fun _ _ _ _ hin => absurd hin (Finset.notMem_empty _)
  pending := rfl
  unidentified := rfl
  historicalMessages := rfl
  historicalText := fun _ _ => rfl
  emitted := fun _ _ => rfl

/-- Two messages of a turn: the second one comes without a delta, and starts as the first one does. -/
def crossedMessages : List (OmnigentRawEvent ℕ) :=
  [liveDelta "e1" "A" "Hel",liveDone "e2" "B" "Hello again",liveDone "e3" "A" "Hello"]

lemma crossedMessages_parts : crossedMessages.map (messagePart (Text.of "t")) =
    [some (Text.of "A",.delta (Text.of "Hel")),some (Text.of "B",.done (Text.of "Hello again")),
      some (Text.of "A",.done (Text.of "Hello"))] := by
  decide +kernel

lemma crossedMessages_partsOf (messageId : Text) : partsOf (Text.of "t") messageId crossedMessages =
    if Text.of "A" = messageId then [.delta (Text.of "Hel"),.done (Text.of "Hello")]
    else if Text.of "B" = messageId then [.done (Text.of "Hello again")] else [] := by
  have hmap : partsOf (Text.of "t") messageId crossedMessages = (crossedMessages.map (messagePart (Text.of "t"))).filterMap
      fun part => part.bind fun p => if p.1 = messageId then some p.2 else none := by
    rw [List.filterMap_map]
    rfl
  rw [hmap, crossedMessages_parts]
  split_ifs with hA hB
  · subst hA
    decide +kernel
  · subst hB
    decide +kernel
  · simp [hA, hB]

lemma crossedMessages_stream : MessageStream (· == startOfEpoch) (Text.of "t") crossedMessages where
  parts := by decide +kernel
  valid := by decide +kernel
  keys := by decide +kernel
  wellSent := by
    intro messageId
    rw [crossedMessages_partsOf]
    split_ifs
    · exact ⟨[Text.of "Hel"],Or.inr ⟨Text.of "Hello",rfl,List.isPrefixOf_iff_prefix.mp rfl⟩⟩
    · exact ⟨[],Or.inr ⟨Text.of "Hello again",rfl,List.nil_prefix⟩⟩
    · exact ⟨[],Or.inl rfl⟩

theorem messages_reconstructed_crossed :
    emittedFor (· == startOfEpoch) (Text.of "t") (Text.of "A") liveMapper crossedMessages = Text.of "Hello" := by
  have hpart : messagePart (Text.of "t") (liveDone "e3" "A" "Hello") = some (Text.of "A",.done (Text.of "Hello")) := by
    decide +kernel
  refine (messages_reconstructed crossedMessages_stream (liveMapper_fresh _ _)).1
    [liveDelta "e1" "A" "Hel",liveDone "e2" "B" "Hello again"] (liveDone "e3" "A" "Hello") [] _ _ rfl hpart ?_
  intro htaken
  have hown : partsOf (Text.of "t") (Text.of "A") [liveDelta "e1" "A" "Hel",liveDone "e2" "B" "Hello again"] ≠ [] := by
    decide +kernel
  exact hown htaken.2.1

/-- The message without a delta is taken for the unfinished one, and its front is not emitted for it. -/
theorem message_taken_for_another :
    MessageStream (· == startOfEpoch) (Text.of "t") crossedMessages ∧
      FreshTurn liveMapper (Text.of "t") crossedMessages ∧
      partsOf (Text.of "t") (Text.of "B") crossedMessages = [.done (Text.of "Hello again")] ∧
      emittedFor (· == startOfEpoch) (Text.of "t") (Text.of "B") liveMapper crossedMessages = Text.of "lo again" :=
  ⟨crossedMessages_stream,liveMapper_fresh _ _,by decide +kernel,by decide +kernel⟩

end OmniagentPlus.OmnigentTransport
