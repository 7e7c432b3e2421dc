import OmniagentPlus.OmnigentTransport.Deliveries
import OmniagentPlus.OmnigentTransport.HistoryReader
import OmniagentPlus.OmnigentTransport.HistoryLifecycle

/-! A page of a fixed history: where what was handed out and numbered so far fits what the reader has, the page
is the front of what the reader lacks, under increasing numbers above its cursor. -/
namespace OmniagentPlus.OmnigentTransport
open OmniagentPlus.Foundation OmniagentPlus.CoreContracts

section EventIds

lemma isDigit_ofChar {c : Char} (h : c.isDigit = true) :
    Text.ofChar c ≠ [] ∧ ∀ u ∈ Text.ofChar c, JsonParse.isDigit u = true := by
  have hbounds : 48 ≤ c.toNat ∧ c.toNat ≤ 57 := by
    simp only [Char.isDigit, Bool.and_eq_true, decide_eq_true_eq, ge_iff_le, UInt32.le_iff_toNat_le] at h
    exact h
  have hchar : Text.ofChar c = [UInt16.ofNat c.toNat] := if_pos (by omega)
  refine ⟨by rw [hchar]; exact List.cons_ne_nil _ _,fun u hu => ?_⟩
  rw [hchar, List.mem_singleton] at hu
  subst hu
  have hnat : (UInt16.ofNat c.toNat).toNat = c.toNat := UInt16.toNat_ofNat_of_lt' (by
    change c.toNat < 65536
    omega)
  simp only [JsonParse.isDigit, Bool.and_eq_true, decide_eq_true_eq, UInt16.le_iff_toNat_le, hnat]
  exact hbounds

lemma decimal_digits (n : ℕ) : decimal n ≠ [] ∧ ∀ u ∈ decimal n, JsonParse.isDigit u = true := by
  have hchars : (toString n).toList = Nat.toDigits 10 n := Nat.toList_repr
  have hdigit : ∀ c ∈ Nat.toDigits 10 n, c.isDigit = true :=
    fun c hc => Nat.isDigit_of_mem_toDigits (by decide) (Nat.le_refl 10) hc
  unfold decimal Text.of
  rw [hchars]
  constructor
  · obtain ⟨c,hc⟩ := List.exists_mem_of_ne_nil _ (Nat.toDigits_ne_nil (n := n) (b := 10))
    obtain ⟨u,hu⟩ := List.exists_mem_of_ne_nil _ (isDigit_ofChar (hdigit c hc)).1
    exact List.ne_nil_of_mem (List.mem_flatMap.mpr ⟨c,hc,hu⟩)
  · intro u hu
    obtain ⟨c,hc,hu⟩ := List.mem_flatMap.mp hu
    exact (isDigit_ofChar (hdigit c hc)).2 u hu

/-- The digits at the end of a text are those of the number it ends with. -/
lemma rdropWhile_digits {body digits : Text} (hdigits : ∀ u ∈ digits, JsonParse.isDigit u = true)
    (hbody : ∀ h : body ≠ [], JsonParse.isDigit (body.getLast h) = false) :
    (body ++ digits).rdropWhile JsonParse.isDigit = body := by
  induction digits using List.reverseRecOn with
  | nil =>
    rw [List.append_nil, List.rdropWhile_eq_self_iff]
    intro h
    rw [hbody h]
    exact Bool.false_ne_true
  | append_singleton digits u ih =>
    rw [← List.append_assoc, List.rdropWhile_concat_pos _ _ _ (hdigits u (by simp))]
    exact ih fun v hv => hdigits v (List.mem_append_left _ hv)

lemma marker_last {front marker : Text} (hmarker : marker = textMarker ∨ marker = continuationMarker)
    (h : front ++ marker ≠ []) : JsonParse.isDigit ((front ++ marker).getLast h) = false := by
  obtain rfl | rfl := hmarker
  · rw [List.getLast_append_of_ne_nil _ (by decide)]
    decide
  · rw [List.getLast_append_of_ne_nil _ (by decide)]
    decide

lemma beforeNumber_eq {front marker : Text} (hmarker : marker = textMarker ∨ marker = continuationMarker) (n : ℕ) :
    beforeNumber marker (front ++ marker ++ decimal n) = some front := by
  obtain ⟨hne,hdigits⟩ := decimal_digits n
  unfold beforeNumber
  rw [rdropWhile_digits hdigits (marker_last hmarker)]
  dsimp only
  rw [if_pos ⟨by simpa [List.length_pos_iff] using hne,List.suffix_append _ _⟩]
  simp

lemma beforeNumber_continuation_none (front : Text) (n : ℕ) :
    beforeNumber continuationMarker (front ++ textMarker ++ decimal n) = none := by
  obtain ⟨-,hdigits⟩ := decimal_digits n
  unfold beforeNumber
  rw [rdropWhile_digits hdigits (marker_last (Or.inl rfl))]
  dsimp only
  refine if_neg fun h => ?_
  obtain hshort | hlong := List.suffix_or_suffix_of_suffix h.2 (List.suffix_append front textMarker)
  · exact absurd hshort (by decide)
  · exact absurd hlong (by decide)

lemma beforeNumber_text_none (front : Text) (n : ℕ) :
    beforeNumber textMarker (front ++ continuationMarker ++ decimal n) = none := by
  obtain ⟨-,hdigits⟩ := decimal_digits n
  unfold beforeNumber
  rw [rdropWhile_digits hdigits (marker_last (Or.inr rfl))]
  dsimp only
  refine if_neg fun h => ?_
  obtain hshort | hlong := List.suffix_or_suffix_of_suffix h.2 (List.suffix_append front continuationMarker)
  · exact absurd hshort (by decide)
  · exact absurd hlong (by decide)

/-- A text event of the mapped history, whose id says its message and its place in it. -/
def TextEventId (eventId : Text) : Prop := ∃ front n, eventId = front ++ textMarker ++ decimal n

/-- The rest of a text is of the same message. -/
lemma runtimeTextMessageId_continuation {eventId : Text} (h : TextEventId eventId) (n : ℕ) :
    runtimeTextMessageId (eventId ++ continuationMarker ++ decimal n) = runtimeTextMessageId eventId := by
  obtain ⟨front,m,rfl⟩ := h
  rw [runtimeTextMessageId, beforeNumber_eq (Or.inr rfl), runtimeTextMessageId, beforeNumber_continuation_none]
  rfl

end EventIds
section Mapping
variable {ν : Type}

def NamedTexts (events : List (RuntimeEventEnvelope ν)) : Prop :=
  ∀ e ∈ events, (turnText e).isSome = true → TextEventId e.eventId

variable [JsNumber ν] {isDatetime : Text → Bool} {sessionId : Text}

namespace HistoryMapping

lemma append_named {h g h' : HistoryMapping ν} {d : EventDraft ν} (hnamed : NamedTexts h.runtimeEvents)
    (happend : g.append isDatetime sessionId d = some h') (hevents : g.runtimeEvents = h.runtimeEvents)
    (hd : ∀ delta, d.payload = .textDelta delta → TextEventId d.eventId) : NamedTexts h'.runtimeEvents := by
  obtain ⟨created,hcreate,rfl⟩ := Option.map_eq_some_iff.mp happend
  obtain ⟨-,rfl⟩ := (createRuntimeEvent_eq_some isDatetime).mp hcreate
  dsimp only
  rw [hevents]
  intro e he htext
  obtain he | he := List.mem_append.mp he
  · exact hnamed e he htext
  · obtain rfl := List.mem_singleton.mp he
    obtain ⟨p,hp⟩ := Option.isSome_iff_exists.mp htext
    unfold turnText at hp
    split at hp
    · rename_i delta turnId hpayload hturn
      exact hd delta hpayload
    · cases hp

lemma ensureStarted_named {h g h' : HistoryMapping ν} {item : OmnigentConversationItem ν} {text : List Text}
    (hnamed : NamedTexts h.runtimeEvents) (hstart : g.ensureStarted isDatetime sessionId item text = some h')
    (hevents : g.runtimeEvents = h.runtimeEvents) : NamedTexts h'.runtimeEvents := by
  unfold ensureStarted at hstart
  split at hstart
  · cases hstart
    rwa [hevents]
  · obtain ⟨occurredAt,-,happend⟩ := Option.bind_eq_some_iff.mp hstart
    refine append_named hnamed happend hevents fun delta hdelta => ?_
    cases hdelta

lemma appendTexts_named {h g h' : HistoryMapping ν} {item : OmnigentConversationItem ν} {occurredAt : Text}
    {text : List Text} (hnamed : NamedTexts h.runtimeEvents)
    (happend : g.appendTexts isDatetime sessionId item occurredAt text = some h')
    (hevents : g.runtimeEvents = h.runtimeEvents) : NamedTexts h'.runtimeEvents := by
  unfold appendTexts at happend
  rw [foldlM_eq_run] at happend
  refine run_invariant _ (I := fun f : HistoryMapping ν => NamedTexts f.runtimeEvents) ?_ (hevents ▸ hnamed) happend
  intro f p f' hf hstep
  refine append_named hf hstep rfl fun delta _ => ⟨item.id,p.2,?_⟩
  simp [textMarker, decimal, Text.of]

lemma mapMessage_named {h h' : HistoryMapping ν} {item : OmnigentConversationItem ν} {occurredAt : Text}
    {text : List Text} (hnamed : NamedTexts h.runtimeEvents)
    (hmap : h.mapMessage isDatetime sessionId item occurredAt text = some h') : NamedTexts h'.runtimeEvents := by
  unfold mapMessage at hmap
  dsimp only at hmap
  split at hmap
  · cases hmap
    exact hnamed
  · obtain ⟨g,hg,hmap⟩ := Option.bind_eq_some_iff.mp hmap
    have hstarted := ensureStarted_named hnamed hg rfl
    split at hmap
    · cases hmap
      exact hstarted
    · obtain ⟨f,hf,hmap⟩ := Option.bind_eq_some_iff.mp hmap
      have htexts := appendTexts_named hstarted hf rfl
      split at hmap
      · refine append_named htexts hmap rfl fun delta hdelta => ?_
        cases hdelta
      · cases hmap
        exact htexts

lemma mapFunctionCall_named {h h' : HistoryMapping ν} {item : OmnigentConversationItem ν} {occurredAt : Text}
    {text : List Text} (hnamed : NamedTexts h.runtimeEvents)
    (hmap : h.mapFunctionCall isDatetime sessionId item occurredAt text = some h') : NamedTexts h'.runtimeEvents := by
  unfold mapFunctionCall at hmap
  split at hmap
  · obtain ⟨g,hg,hmap⟩ := Option.bind_eq_some_iff.mp hmap
    refine append_named (ensureStarted_named hnamed hg rfl) hmap rfl fun delta hdelta => ?_
    cases hdelta
  · cases hmap
    exact hnamed

lemma mapFunctionCallOutput_named {h h' : HistoryMapping ν} {item : OmnigentConversationItem ν} {occurredAt : Text}
    {text : List Text} (hnamed : NamedTexts h.runtimeEvents)
    (hmap : h.mapFunctionCallOutput isDatetime sessionId item occurredAt text = some h') :
    NamedTexts h'.runtimeEvents := by
  unfold mapFunctionCallOutput at hmap
  split at hmap
  · obtain ⟨g,hg,hmap⟩ := Option.bind_eq_some_iff.mp hmap
    refine append_named (ensureStarted_named hnamed hg rfl) hmap rfl fun delta hdelta => ?_
    cases hdelta
  · cases hmap
    exact hnamed

lemma mapError_named {h h' : HistoryMapping ν} {item : OmnigentConversationItem ν} {occurredAt : Text}
    {text : List Text} (hnamed : NamedTexts h.runtimeEvents)
    (hmap : h.mapError isDatetime sessionId item occurredAt text = some h') : NamedTexts h'.runtimeEvents := by
  unfold mapError at hmap
  split at hmap
  · cases hmap
    exact hnamed
  · obtain ⟨g,hg,hmap⟩ := Option.bind_eq_some_iff.mp hmap
    refine append_named (ensureStarted_named hnamed hg rfl) hmap rfl fun delta hdelta => ?_
    cases hdelta

/-- A text event of the mapped history has its message and its place in its id. -/
lemma mapItem_named {h h' : HistoryMapping ν} {item : OmnigentConversationItem ν} (hnamed : NamedTexts h.runtimeEvents)
    (hmap : h.mapItem isDatetime sessionId item = some h') : NamedTexts h'.runtimeEvents := by
  obtain ⟨occurredAt,-,hmap⟩ := Option.bind_eq_some_iff.mp hmap
  have hseen : NamedTexts ({ h with seenItemIds := insert item.id h.seenItemIds } : HistoryMapping ν).runtimeEvents := hnamed
  dsimp only at hmap
  split at hmap
  · exact mapMessage_named hseen hmap
  · exact mapFunctionCall_named hseen hmap
  · exact mapFunctionCallOutput_named hseen hmap
  · exact mapError_named hseen hmap
  · cases hmap
    exact hnamed

end HistoryMapping

lemma mapped_named {items : List (OmnigentConversationItem ν)} {mapped : MappedOmnigentHistory ν}
    (hmapped : mapOmnigentConversationHistory isDatetime sessionId items none = some mapped) :
    NamedTexts mapped.runtimeEvents := by
  obtain ⟨h,hrun,rfl⟩ := Option.map_eq_some_iff.mp hmapped
  rw [foldlM_eq_run] at hrun
  refine run_invariant _ (I := fun g : HistoryMapping ν => NamedTexts g.runtimeEvents)
    (fun g item g' hg hstep => HistoryMapping.mapItem_named hg hstep) ?_ hrun
  intro e he
  cases he

end Mapping
section States
variable {ν : Type}

namespace EventReplay

def sequences (s : EventReplay) (sessionId : Text) : Dictionary Text ℕ := (s.eventSequences.get? sessionId).getD .empty

def nextSequence (s : EventReplay) (sessionId : Text) : ℕ := (s.nextEventSequences.get? sessionId).getD 1

def Numbered (s : EventReplay) : Prop := ∀ sessionId, Numbering (s.sequences sessionId) (s.nextSequence sessionId)

lemma numbered_init : init.Numbered := fun _ => Numbering.empty

lemma numbered_resequence {s : EventReplay} (h : s.Numbered) (sessionId : Text) (events : List (RuntimeEventEnvelope ν))
    (sequenceFloor : ℕ) : (s.resequenceRuntimeEvents sessionId events sequenceFloor).2.Numbered := by
  intro other
  by_cases hsession : other = sessionId
  · subst hsession
    have hlist := (resequenceList_spec ((h other).mono (le_max_left _ (sequenceFloor + 1))) events).numbering
    simpa [resequenceRuntimeEvents, sequences, nextSequence] using hlist
  · have hother := h other
    simpa [resequenceRuntimeEvents, sequences, nextSequence, Dictionary.get?_set_of_ne _ _ hsession] using hother

lemma recordText_numbers (sessionId : Text) (sourceMessageId : Option Text) (s : EventReplay) (e : RuntimeEventEnvelope ν) :
    (recordText sessionId sourceMessageId s e).eventSequences = s.eventSequences ∧
      (recordText sessionId sourceMessageId s e).nextEventSequences = s.nextEventSequences := by
  unfold recordText
  split
  · exact ⟨rfl,rfl⟩
  · dsimp only
    split_ifs <;> exact ⟨rfl,rfl⟩

lemma recordDeliveredText_numbers (s : EventReplay) (sessionId : Text) (events : List (RuntimeEventEnvelope ν))
    (sourceMessageId : Option Text) :
    (s.recordDeliveredText sessionId events sourceMessageId).eventSequences = s.eventSequences ∧
      (s.recordDeliveredText sessionId events sourceMessageId).nextEventSequences = s.nextEventSequences := by
  induction events generalizing s with
  | nil => exact ⟨rfl,rfl⟩
  | cons e es ih =>
    obtain ⟨hsequences,hnext⟩ := recordText_numbers sessionId sourceMessageId s e
    obtain ⟨hsequences',hnext'⟩ := ih (recordText sessionId sourceMessageId s e)
    exact ⟨hsequences'.trans hsequences,hnext'.trans hnext⟩

lemma numbered_record {s : EventReplay} (h : s.Numbered) (sessionId : Text) (events : List (RuntimeEventEnvelope ν))
    (sourceMessageId : Option Text) : (s.recordDeliveredText sessionId events sourceMessageId).Numbered := by
  obtain ⟨hsequences,hnext⟩ := s.recordDeliveredText_numbers sessionId events sourceMessageId
  intro other
  rw [sequences, nextSequence, hsequences, hnext]
  exact h other

lemma numbered_operations {s : EventReplay} (h : s.Numbered) (operations : List (ReplayOperation ν)) :
    (operations.foldl apply s).Numbered := by
  induction operations generalizing s with
  | nil => exact h
  | cons operation operations ih =>
    apply ih
    cases operation with
    | resequence call => exact numbered_resequence h _ _ _
    | record sessionId events sourceMessageId => exact numbered_record h _ _ _

end EventReplay
end States
section Pages
variable {ν : Type}

namespace EventReplay

def numberOf (s : EventReplay) (sessionId : Text) (e : RuntimeEventEnvelope ν) : Option ℕ :=
  (s.sequences sessionId).get? (runtimeEventSequenceKey e)

end EventReplay

/-- What is sent of a history to a reader: of a message that it has text of the rest, under ids of their own. -/
def Reader.replayed (r : Reader) (events : List (RuntimeEventEnvelope ν)) : List (RuntimeEventEnvelope ν) :=
  undelivered r.texts [] events

/-- What of it the reader was not handed. -/
def Reader.lacked (r : Reader) (events : List (RuntimeEventEnvelope ν)) : List (RuntimeEventEnvelope ν) :=
  (r.replayed events).filter fun e => !r.has e

/-- The texts of the history's turns that were handed out. -/
def deliveredIn (ds : List Delivery) (sessionId : Text) (events : List (RuntimeEventEnvelope ν)) : List Delivery :=
  (firstDeliveries ds).filter fun d => decide (d.sessionId = sessionId ∧ d.turnId ∈ turnsOf events)

/-- What the texts handed out have to do with a reader: up to its cursor they are of messages of the history, and what
the reader has of these; beyond it they are texts that the reader lacks. -/
structure TextsReady (operations : List (ReplayOperation ν)) (sessionId : Text) (events : List (RuntimeEventEnvelope ν))
    (afterSequence : Option ℕ) (r : Reader) : Prop where
  named : ∀ e ∈ events, (turnText e).isSome = true → (eventMessageId none e).isSome = true
  spelled : ∀ turnId ∈ turnsOf events, SpelledApart (deliveriesOf operations) sessionId turnId
  known : ∀ d ∈ deliveredIn (deliveriesOf operations) sessionId events, d.sequence ≤ afterSequence.getD 0 →
    ∃ e ∈ events, (turnText e).map Prod.fst = some d.turnId ∧ eventMessageId none e = d.messageId
  texts : ∀ e ∈ events, ∀ p ∈ turnText e, r.texts p.1 (messageKey e) =
    deliveredText (deliveriesOf operations) sessionId afterSequence p.1 (messageKey e)
  agree : ∀ e ∈ events, ∀ p ∈ turnText e, ∀ text ∈ r.texts p.1 (messageKey e),
    Agree text (currentText none events p.1 (messageKey e))
  empty : ∀ e ∈ events, ∀ p ∈ turnText e, p.2 = [] → (r.texts p.1 (messageKey e)).isSome = true → r.has e = true
  ahead : ∀ d ∈ deliveredIn (deliveriesOf operations) sessionId events, afterSequence.getD 0 < d.sequence →
    ∃ e ∈ r.lacked events, runtimeEventSequenceKey e = d.key ∧ turnText e = some (d.turnId,d.delta) ∧
      eventMessageId none e = d.messageId

instance decidableTextsReady (operations : List (ReplayOperation ν)) (sessionId : Text)
    (events : List (RuntimeEventEnvelope ν)) (afterSequence : Option ℕ) (r : Reader) :
    Decidable (TextsReady operations sessionId events afterSequence r) :=
  decidable_of_iff
    ((∀ e ∈ events, (turnText e).isSome = true → (eventMessageId none e).isSome = true) ∧
      (∀ turnId ∈ turnsOf events, SpelledApart (deliveriesOf operations) sessionId turnId) ∧
      (∀ d ∈ deliveredIn (deliveriesOf operations) sessionId events, d.sequence ≤ afterSequence.getD 0 →
        ∃ e ∈ events, (turnText e).map Prod.fst = some d.turnId ∧ eventMessageId none e = d.messageId) ∧
      (∀ e ∈ events, ∀ p ∈ turnText e, r.texts p.1 (messageKey e) =
        deliveredText (deliveriesOf operations) sessionId afterSequence p.1 (messageKey e)) ∧
      (∀ e ∈ events, ∀ p ∈ turnText e, ∀ text ∈ r.texts p.1 (messageKey e),
        Agree text (currentText none events p.1 (messageKey e))) ∧
      (∀ e ∈ events, ∀ p ∈ turnText e, p.2 = [] → (r.texts p.1 (messageKey e)).isSome = true → r.has e = true) ∧
      ∀ d ∈ deliveredIn (deliveriesOf operations) sessionId events, afterSequence.getD 0 < d.sequence →
        ∃ e ∈ r.lacked events, runtimeEventSequenceKey e = d.key ∧ turnText e = some (d.turnId,d.delta) ∧
          eventMessageId none e = d.messageId)
    ⟨fun h => ⟨h.1,h.2.1,h.2.2.1,h.2.2.2.1,h.2.2.2.2.1,h.2.2.2.2.2.1,h.2.2.2.2.2.2⟩,
      fun h => ⟨h.named,h.spelled,h.known,h.texts,h.agree,h.empty,h.ahead⟩⟩

/-- What the numbers given so far have to do with a reader: those up to its cursor are of what it was handed,
those of what it lacks go up with the history, and what has no number yet comes last. -/
structure NumbersReady (operations : List (ReplayOperation ν)) (sessionId : Text) (events : List (RuntimeEventEnvelope ν))
    (afterSequence : Option ℕ) (r : Reader) : Prop where
  booked : ∀ d ∈ deliveredIn (deliveriesOf operations) sessionId events,
    ((EventReplay.after operations).sequences sessionId).get? d.key = some d.sequence
  passed : ∀ e ∈ r.replayed events,
    ((EventReplay.after operations).numberOf sessionId e).any (fun n => decide (n ≤ afterSequence.getD 0)) = r.has e
  order : (r.lacked events).Pairwise fun a b => runtimeEventSequenceKey a ≠ runtimeEventSequenceKey b ∧
    ∀ n ∈ (EventReplay.after operations).numberOf sessionId b,
      ∃ m ∈ (EventReplay.after operations).numberOf sessionId a, m < n
  fresh : ∀ e ∈ r.replayed events, (EventReplay.after operations).numberOf sessionId e = none →
    afterSequence.getD 0 < (EventReplay.after operations).nextSequence sessionId

instance decidableNumbersReady (operations : List (ReplayOperation ν)) (sessionId : Text)
    (events : List (RuntimeEventEnvelope ν)) (afterSequence : Option ℕ) (r : Reader) :
    Decidable (NumbersReady operations sessionId events afterSequence r) :=
  decidable_of_iff
    ((∀ d ∈ deliveredIn (deliveriesOf operations) sessionId events,
        ((EventReplay.after operations).sequences sessionId).get? d.key = some d.sequence) ∧
      (∀ e ∈ r.replayed events, ((EventReplay.after operations).numberOf sessionId e).any
        (fun n => decide (n ≤ afterSequence.getD 0)) = r.has e) ∧
      ((r.lacked events).Pairwise fun a b => runtimeEventSequenceKey a ≠ runtimeEventSequenceKey b ∧
        ∀ n ∈ (EventReplay.after operations).numberOf sessionId b,
          ∃ m ∈ (EventReplay.after operations).numberOf sessionId a, m < n) ∧
      ∀ e ∈ r.replayed events, (EventReplay.after operations).numberOf sessionId e = none →
        afterSequence.getD 0 < (EventReplay.after operations).nextSequence sessionId)
    ⟨fun h => ⟨h.1,h.2.1,h.2.2.1,h.2.2.2⟩,fun h => ⟨h.booked,h.passed,h.order,h.fresh⟩⟩

/-- Where a reader stands that asks for the history from its cursor on. -/
structure PageReady (operations : List (ReplayOperation ν)) (sessionId : Text) (events : List (RuntimeEventEnvelope ν))
    (afterSequence : Option ℕ) (r : Reader) : Prop where
  texts : TextsReady operations sessionId events afterSequence r
  numbers : NumbersReady operations sessionId events afterSequence r

instance decidablePageReady (operations : List (ReplayOperation ν)) (sessionId : Text)
    (events : List (RuntimeEventEnvelope ν)) (afterSequence : Option ℕ) (r : Reader) :
    Decidable (PageReady operations sessionId events afterSequence r) :=
  decidable_of_iff (TextsReady operations sessionId events afterSequence r ∧
    NumbersReady operations sessionId events afterSequence r) ⟨fun h => ⟨h.1,h.2⟩,fun h => ⟨h.texts,h.numbers⟩⟩

lemma undelivered_congr {D D' : Text → Text → Option Text} (before : List (RuntimeEventEnvelope ν))
    {events : List (RuntimeEventEnvelope ν)}
    (h : ∀ e ∈ events, ∀ p ∈ turnText e, D p.1 (messageKey e) = D' p.1 (messageKey e)) : undelivered D before events = undelivered D' before events := by
  induction events generalizing before with
  | nil => rfl
  | cons e es ih =>
    rw [undelivered, undelivered, ih _ fun f hf => h f (List.mem_cons_of_mem e hf)]
    congr 1
    unfold cut
    cases ht : turnText e with
    | none => rfl
    | some p =>
      dsimp only
      rw [h e List.mem_cons_self p ht]

/-- What the provider sends again, less what the reader was handed, is what is due. -/
lemma replayed_due {r : Reader} (before : List (RuntimeEventEnvelope ν)) {events : List (RuntimeEventEnvelope ν)}
    (hnamed : NamedTexts events) (hempty : ∀ e ∈ events, ∀ p ∈ turnText e, p.2 = [] →
      (r.texts p.1 (messageKey e)).isSome = true → r.has e = true) :
    ((undelivered r.texts before events).filter fun e => !r.has e).map content = (r.dueFrom before events).map content := by
  induction events generalizing before with
  | nil => rfl
  | cons e es ih =>
    rw [undelivered, Reader.dueFrom, List.filter_append, List.map_append, List.map_append,
      ih _ (fun f hf => hnamed f (List.mem_cons_of_mem e hf)) fun f hf => hempty f (List.mem_cons_of_mem e hf)]
    congr 1
    have hwhole : isPlain e = true → ([e].filter fun e => !r.has e).map content = (r.lacking before e).map content := by
      intro hp
      rw [Reader.lacking, if_pos hp]
      cases hhas : r.has e <;> simp [hhas]
    unfold cut
    cases ht : turnText e with
    | none => exact hwhole (by rw [isPlain, ht]; rfl)
    | some p =>
      obtain ⟨turnId,delta⟩ := p
      dsimp only
      by_cases hne : delta = []
      · subst hne
        have hp : isPlain e = true := isPlain_of_text ht
        cases htexts : r.texts turnId (messageKey e) with
        | none => exact hwhole hp
        | some text =>
          have hhas := hempty e List.mem_cons_self (turnId,[]) ht rfl (by rw [htexts]; rfl)
          rw [Reader.lacking, if_pos hp, if_pos hhas]
          simp
      · have hp : isPlain e = false := by
          rw [isPlain_of_text ht]
          simpa using hne
        have hhas : ∀ f : RuntimeEventEnvelope ν, isPlain f = false → r.has f = false := fun f hf => by
          rw [Reader.has, hf, Bool.false_and]
        rw [Reader.lacking_text ht hne]
        cases htexts : r.texts turnId (messageKey e) with
        | none =>
          have hlength : r.textLength turnId (messageKey e) = 0 := by rw [Reader.textLength, htexts]; rfl
          have hdelta : delta.isEmpty = false := by simpa using hne
          rw [hlength, Nat.zero_sub, List.drop_zero]
          dsimp only
          rw [hdelta, if_neg Bool.false_ne_true, withText_self ht, List.filter_cons_of_pos (by rw [hhas e hp]; rfl)]
          rfl
        | some text =>
          have hlength : r.textLength turnId (messageKey e) = text.length := by rw [Reader.textLength, htexts]; rfl
          rw [hlength]
          dsimp only
          generalize delta.drop (text.length - (currentText none before turnId (messageKey e)).length) = rest
          cases hrest : rest.isEmpty with
          | true => rfl
          | false =>
            have hcontinued : isPlain (EventReplay.continuation e delta.length rest) = false := by
              rw [EventReplay.continuation, isPlain_of_text (turnText_withText ht _ _), hrest]
            have hsame : isPlain ({ e with payload := .textDelta rest } : RuntimeEventEnvelope ν) = false := by
              rw [isPlain_of_text (turnText_withText ht e.eventId rest), hrest]
            have hmessage : messageKey (EventReplay.continuation e delta.length rest) = messageKey e :=
              congrArg (fun id => id.getD identityFree)
                (runtimeTextMessageId_continuation (hnamed e List.mem_cons_self (by rw [ht]; rfl)) _)
            rw [if_neg Bool.false_ne_true, if_neg Bool.false_ne_true,
              List.filter_cons_of_pos (by rw [hhas _ hcontinued]; rfl), List.map_cons, List.map_cons]
            simp only [content, hcontinued, hsame, hmessage, Bool.false_eq_true, if_false]
            rfl

/-- Two events that have no text are not taken for each other. -/
def ApartPlain (a b : RuntimeEventEnvelope ν) : Prop :=
  isPlain a = true → isPlain b = true → runtimeEventSequenceKey a ≠ runtimeEventSequenceKey b

lemma apartPlain_content {a b : RuntimeEventEnvelope ν} : ApartPlain (content a) (content b) ↔ ApartPlain a b := by
  have hplain : ∀ e : RuntimeEventEnvelope ν, isPlain (content e) = isPlain e := fun _ => rfl
  have hkey : ∀ e : RuntimeEventEnvelope ν, isPlain e = true →
      runtimeEventSequenceKey (content e) = runtimeEventSequenceKey e := by
    intro e he
    rw [content, he]
    rfl
  unfold ApartPlain
  rw [hplain, hplain]
  refine forall_congr' fun ha => forall_congr' fun hb => ?_
  rw [hkey a ha, hkey b hb]

lemma apartPlain_congr {l l' : List (RuntimeEventEnvelope ν)} (h : l.map content = l'.map content)
    (hl : l.Pairwise ApartPlain) : l'.Pairwise ApartPlain := by
  have hcontent : ∀ m : List (RuntimeEventEnvelope ν), (m.map content).Pairwise ApartPlain ↔ m.Pairwise ApartPlain := by
    intro m
    rw [List.pairwise_map]
    exact List.Pairwise.iff fun _ _ => apartPlain_content
  rw [← hcontent, ← h, hcontent]
  exact hl

/-- The front of the list that goes into the page. -/
def cutPage {α : Type} (limit : Option ℕ) (l : List α) : List α := limit.elim l fun n => l.take n

lemma cutPage_front {α : Type} (limit : Option ℕ) (l : List α) : cutPage limit l <+: l := by
  cases limit with
  | none => exact List.prefix_rfl
  | some n => exact List.take_prefix n l

lemma cutPage_eq_nil {α : Type} {limit : Option ℕ} {l : List α} (hlimit : limit ≠ some 0) (h : cutPage limit l = []) :
    l = [] := by
  cases limit with
  | none => exact h
  | some n =>
    obtain hzero | hnil := List.take_eq_nil_iff.mp h
    · exact absurd (congrArg some hzero) hlimit
    · exact hnil

lemma le_last {l : List (RuntimeEventEnvelope ν)} (h : l.Pairwise fun a b => a.sequence < b.sequence) (n : Option ℕ) :
    ∀ e ∈ l, e.sequence ≤ ((l.getLast?.map (·.sequence)).or n).getD 0 := by
  intro e he
  obtain rfl | ⟨front,last,rfl⟩ := List.eq_nil_or_concat' l
  · cases he
  · rw [List.getLast?_concat]
    obtain he | he := List.mem_append.mp he
    · exact Nat.le_of_lt ((List.pairwise_append.mp h).2.2 e he last List.mem_cons_self)
    · exact Nat.le_of_eq (congrArg _ (List.mem_singleton.mp he))

section Page
variable {operations : List (ReplayOperation ν)} {sessionId : Text} {events : List (RuntimeEventEnvelope ν)}
  {afterSequence limit : Option ℕ} {r : Reader}

lemma mem_deliveredIn {ds : List Delivery} {d : Delivery} :
    d ∈ deliveredIn ds sessionId events ↔ d ∈ firstDeliveries ds ∧ d.sessionId = sessionId ∧ d.turnId ∈ turnsOf events := by
  rw [deliveredIn, List.mem_filter, decide_eq_true_eq]

namespace TextsReady

lemma deliveredTo_eq (h : TextsReady operations sessionId events afterSequence r) {e : RuntimeEventEnvelope ν} (he : e ∈ events)
    {p : Text × Text} (hp : p ∈ turnText e) :
    (EventReplay.after operations).deliveredTo sessionId afterSequence p.1 (messageKey e) = r.texts p.1 (messageKey e) := by
  have hturn : p.1 ∈ turnsOf events := mem_turnsOf.mpr ⟨e,he,p.2,hp⟩
  rw [(EventReplay.books_operations operations (h.spelled p.1 hturn)).deliveredTo_eq, h.texts e he p hp]

lemma known_turns {cursor : ℕ} (h : TextsReady operations sessionId events (some cursor) r) :
    (EventReplay.after operations).Known sessionId cursor events none := by
  intro turnId hturn
  have hin : ∀ d ∈ firstDeliveries (deliveriesOf operations), d.inTurn sessionId turnId = true →
      d ∈ deliveredIn (deliveriesOf operations) sessionId events ∧ d.turnId = turnId := by
    intro d hd hin
    rw [Delivery.inTurn, Bool.and_eq_true, beq_iff_eq, beq_iff_eq] at hin
    exact ⟨mem_deliveredIn.mpr ⟨hd,hin.1,hin.2 ▸ hturn⟩,hin.2⟩
  have hnamed : ∀ e ∈ events, (turnText e).map Prod.fst = some turnId → (eventMessageId none e).isSome = true := by
    intro e he htext
    obtain ⟨p,hp,-⟩ := Option.map_eq_some_iff.mp htext
    exact h.named e he (by rw [hp]; rfl)
  refine knownTurn (EventReplay.books_operations operations (h.spelled turnId hturn)) (fun d hd hturnd hle => ?_)
    fun d hd hturnd _ e he htext => hnamed e he htext
  obtain ⟨hd,rfl⟩ := hin d hd hturnd
  obtain ⟨e,he,htext,hid⟩ := h.known d hd hle
  exact ⟨hid ▸ hnamed e he htext,e,he,htext,hid⟩

/-- The page as a cut of what is sent again. -/
lemma replayHistory_eq (h : TextsReady operations sessionId events afterSequence r) :
    (EventReplay.after operations).replayHistory sessionId events afterSequence limit =
      let resequenced := (EventReplay.after operations).resequenceRuntimeEvents sessionId (r.replayed events) 0
      let page := cutPage limit (resequenced.1.filter fun e => decide (afterSequence.getD 0 < e.sequence))
      (⟨page,((page.getLast?.map (·.sequence)).or afterSequence).getD 0,sessionId⟩,
        resequenced.2.recordDeliveredText sessionId page none) := by
  have hundelivered : undelivered ((EventReplay.after operations).deliveredTo sessionId afterSequence) [] events =
      r.replayed events := undelivered_congr [] fun e he p hp => h.deliveredTo_eq he hp
  unfold EventReplay.replayHistory
  cases afterSequence with
  | none =>
    have hnone := undelivered_none [] events
    rw [← hundelivered, show (EventReplay.after operations).deliveredTo sessionId none = fun _ _ => none from rfl, hnone]
    cases limit <;> rfl
  | some cursor =>
    have hagree : ∀ e ∈ events, ∀ p ∈ turnText e, ∀ text,
        (EventReplay.after operations).deliveredTo sessionId (some cursor) p.1 (messageKey e) = some text →
          Agree text (currentText none events p.1 (messageKey e)) := by
      intro e he p hp text htext
      rw [h.deliveredTo_eq he hp] at htext
      exact h.agree e he p hp text htext
    have htrim := EventReplay.trimDeliveredHistoryText_undelivered h.known_turns hagree
    dsimp only
    rw [htrim, hundelivered]
    cases limit <;> rfl

end TextsReady
namespace NumbersReady

lemma newKeys (h : NumbersReady operations sessionId events afterSequence r) :
    (r.replayed events).Pairwise fun a b => (EventReplay.after operations).numberOf sessionId b = none →
      runtimeEventSequenceKey a ≠ runtimeEventSequenceKey b := by
  have hnumbered : ∀ e ∈ r.replayed events, r.has e = true → ∃ n, (EventReplay.after operations).numberOf sessionId e = some n := by
    intro e he hhas
    obtain ⟨n,hn,-⟩ := (Option.any_eq_true _ _).mp ((h.passed e he).trans hhas)
    exact ⟨n,hn⟩
  refine (List.pairwise_filter.mp h.order).imp_of_mem fun ha hb hab hnone hkey => ?_
  cases hhasb : r.has _ with
  | true =>
    obtain ⟨n,hn⟩ := hnumbered _ hb hhasb
    rw [hnone] at hn
    cases hn
  | false =>
    cases hhasa : r.has _ with
    | true =>
      obtain ⟨n,hn⟩ := hnumbered _ ha hhasa
      rw [EventReplay.numberOf, hkey] at hn
      rw [EventReplay.numberOf, hn] at hnone
      cases hnone
    | false => exact (hab (by rw [hhasa]; rfl) (by rw [hhasb]; rfl)).1 hkey

end NumbersReady

/-- What renumbering does to what is sent: `table` has the numbers from before and one for each event; above the cursor is what
the reader was not handed, in the order of the history. -/
structure Renumbered (operations : List (ReplayOperation ν)) (sessionId : Text) (events : List (RuntimeEventEnvelope ν))
    (afterSequence : Option ℕ) (r : Reader) (table : Dictionary Text ℕ) : Prop where
  events_eq : ((EventReplay.after operations).resequenceRuntimeEvents sessionId (r.replayed events) 0).1 =
    (r.replayed events).map (renumber table)
  sequences : ((EventReplay.after operations).resequenceRuntimeEvents sessionId (r.replayed events) 0).2.sequences sessionId = table
  kept : ∀ key n, ((EventReplay.after operations).sequences sessionId).get? key = some n → table.get? key = some n
  new : ∀ key n, table.get? key = some n → ((EventReplay.after operations).sequences sessionId).get? key = some n ∨
    ∃ e ∈ r.replayed events, runtimeEventSequenceKey e = key
  numbered : ∀ e ∈ r.replayed events, table.get? (runtimeEventSequenceKey e) = some (renumber table e).sequence
  passed : ∀ e ∈ r.replayed events, decide (afterSequence.getD 0 < (renumber table e).sequence) = !r.has e
  rising : (r.lacked events).Pairwise fun a b => (renumber table a).sequence < (renumber table b).sequence

namespace NumbersReady

lemma renumbered (h : NumbersReady operations sessionId events afterSequence r) :
    ∃ table, Renumbered operations sessionId events afterSequence r table := by
  have hnumbering := EventReplay.numbered_operations EventReplay.numbered_init operations sessionId
  have hspec := resequenceList_spec hnumbering (r.replayed events)
  have horder := resequenceList_order hnumbering h.newKeys
  have hmax : max ((EventReplay.after operations).nextSequence sessionId) (0 + 1) =
      (EventReplay.after operations).nextSequence sessionId := Nat.max_eq_left hnumbering.positive
  have hresequenced : (EventReplay.after operations).resequenceRuntimeEvents sessionId (r.replayed events) 0 =
      ((EventReplay.resequenceList ((EventReplay.after operations).sequences sessionId)
        ((EventReplay.after operations).nextSequence sessionId) (r.replayed events)).1,
        { EventReplay.after operations with
          eventSequences := (EventReplay.after operations).eventSequences.set sessionId
            (EventReplay.resequenceList ((EventReplay.after operations).sequences sessionId)
              ((EventReplay.after operations).nextSequence sessionId) (r.replayed events)).2.1
          nextEventSequences := (EventReplay.after operations).nextEventSequences.set sessionId
            (EventReplay.resequenceList ((EventReplay.after operations).sequences sessionId)
              ((EventReplay.after operations).nextSequence sessionId) (r.replayed events)).2.2 }) := by
    rw [← hmax]
    rfl
  refine ⟨_,?_,?_,hspec.kept,fun key n hn => ?_,fun e he => ?_,fun e he => ?_,?_⟩
  · rw [hresequenced]
    exact hspec.events
  · rw [hresequenced, EventReplay.sequences, Dictionary.get?_set_self]
    rfl
  · exact (hspec.new key n hn).imp_right fun hnew => hnew.2.2
  · obtain ⟨n,hn⟩ := Option.isSome_iff_exists.mp (hspec.numbered e he)
    rw [renumber, hn]
    rfl
  · obtain ⟨n,hn⟩ := Option.isSome_iff_exists.mp (hspec.numbered e he)
    rw [renumber, hn, Option.getD_some]
    cases hhas : r.has e with
    | true =>
      obtain ⟨m,hm,hle⟩ := (Option.any_eq_true _ _).mp ((h.passed e he).trans hhas)
      rw [hspec.kept _ m hm] at hn
      cases hn
      exact decide_eq_false (Nat.not_lt.mpr (of_decide_eq_true hle))
    | false =>
      refine decide_eq_true ?_
      obtain hold | ⟨hnone,hle,-⟩ := hspec.new _ n hn
      · by_contra hnot
        have hpassed := h.passed e he
        rw [hhas, EventReplay.numberOf, show ((EventReplay.after operations).sequences sessionId).get?
          (runtimeEventSequenceKey e) = some n from hold] at hpassed
        exact absurd (Nat.not_lt.mp hnot) (of_decide_eq_false hpassed)
      · exact (h.fresh e he hnone).trans_le hle
  · refine (h.order.and (horder.sublist List.filter_sublist)).imp fun hab => ?_
    obtain ⟨⟨-,hbefore⟩,hnew⟩ := hab
    rename_i a b
    cases hb : (EventReplay.after operations).numberOf sessionId b with
    | none => exact hnew hb
    | some n =>
      obtain ⟨m,hm,hlt⟩ := hbefore n hb
      rw [renumber, renumber, hspec.kept _ m hm, hspec.kept _ n hb]
      exact hlt

end NumbersReady

def cursorAfter (afterSequence : Option ℕ) (page : List (RuntimeEventEnvelope ν)) : ℕ :=
  ((page.getLast?.map (·.sequence)).or afterSequence).getD 0

/-- What a page does to the provider: what is sent gets numbers, and the page is recorded. -/
def pageOperations (sessionId : Text) (events : List (RuntimeEventEnvelope ν)) (r : Reader)
    (page : List (RuntimeEventEnvelope ν)) : List (ReplayOperation ν) :=
  [.resequence ⟨sessionId,r.replayed events,0⟩,.record sessionId page none]

/-- What a page takes of what the reader lacks. -/
structure PageTaken (events : List (RuntimeEventEnvelope ν)) (afterSequence : Option ℕ) (r : Reader)
    (page : List (RuntimeEventEnvelope ν)) : Prop where
  increasing : page.Pairwise fun a b => a.sequence < b.sequence
  range : ∀ e ∈ page, afterSequence.getD 0 < e.sequence ∧ e.sequence ≤ cursorAfter afterSequence page
  taken : page.map content <+: (r.due events).map content
  rest : (r.receive page).due events = (r.due events).drop page.length
  ended : page = [] → r.due events = []

lemma lacked_content (hnamed : NamedTexts events) (h : TextsReady operations sessionId events afterSequence r) :
    (r.lacked events).map content = (r.due events).map content := replayed_due [] hnamed h.empty

lemma content_renumber (table : Dictionary Text ℕ) (l : List (RuntimeEventEnvelope ν)) :
    (l.map (renumber table)).map content = l.map content := by
  rw [List.map_map]
  rfl

namespace PageReady
variable {table : Dictionary Text ℕ}

/-- What is above the cursor is what the reader lacks. -/
lemma replayHistory_eq (h : PageReady operations sessionId events afterSequence r)
    (htable : Renumbered operations sessionId events afterSequence r table) :
    (EventReplay.after operations).replayHistory sessionId events afterSequence limit =
      let page := (cutPage limit (r.lacked events)).map (renumber table)
      (⟨page,cursorAfter afterSequence page,sessionId⟩,
        EventReplay.after (operations ++ pageOperations sessionId events r page)) := by
  have hkept : ((r.replayed events).map (renumber table)).filter
      (fun e => decide (afterSequence.getD 0 < e.sequence)) = (r.lacked events).map (renumber table) := by
    rw [List.filter_map]
    exact congrArg _ (List.filter_congr htable.passed)
  have hcut : ∀ l : List (RuntimeEventEnvelope ν), cutPage limit (l.map (renumber table)) =
      (cutPage limit l).map (renumber table) := by
    intro l
    cases limit with
    | none => rfl
    | some n => exact List.map_take.symm
  rw [h.texts.replayHistory_eq]
  dsimp only
  rw [htable.events_eq, hkept, hcut, EventReplay.after_append]
  rfl

lemma pageTaken (h : PageReady operations sessionId events afterSequence r)
    (htable : Renumbered operations sessionId events afterSequence r table) (hnamed : NamedTexts events)
    (hlimit : limit ≠ some 0) :
    PageTaken events afterSequence r ((cutPage limit (r.lacked events)).map (renumber table)) := by
  have hcontent := lacked_content hnamed h.texts
  have hdistinct : (r.due events).Pairwise ApartPlain :=
    apartPlain_congr hcontent (h.numbers.order.imp fun hab _ _ => hab.1)
  have hfront := cutPage_front limit (r.lacked events)
  have hincreasing : ((cutPage limit (r.lacked events)).map (renumber table)).Pairwise
      fun a b => a.sequence < b.sequence := List.pairwise_map.mpr (htable.rising.sublist hfront.sublist)
  have htaken : ((cutPage limit (r.lacked events)).map (renumber table)).map content <+: (r.due events).map content := by
    rw [content_renumber, ← hcontent]
    exact hfront.map content
  refine ⟨hincreasing,fun e he => ⟨?_,le_last hincreasing afterSequence e he⟩,htaken,
    Reader.due_receive htaken hdistinct,fun hnil => ?_⟩
  · obtain ⟨x,hx,rfl⟩ := List.mem_map.mp he
    obtain ⟨hx,hhas⟩ := List.mem_filter.mp (hfront.subset hx)
    exact of_decide_eq_true ((htable.passed x hx).trans hhas)
  · rw [cutPage_eq_nil hlimit (List.map_eq_nil_iff.mp hnil)] at hcontent
    exact List.map_eq_nil_iff.mp hcontent.symm

end PageReady
end Page
end Pages
end OmniagentPlus.OmnigentTransport
