import OmniagentPlus.Foundation.PageWalk
import OmniagentPlus.OmnigentTransport.EventNumbering
import OmniagentPlus.OmnigentTransport.DeliveredText

/-! The text that was handed out: each text event of a turn once, as it was first recorded. What a reader
with a cursor has of a message is what was handed out of it under the numbers up to the cursor. -/
namespace OmniagentPlus.OmnigentTransport
open OmniagentPlus.Foundation OmniagentPlus.CoreContracts

/-- A text handed out, with the key of its event. -/
structure Delivery where
  sessionId : Text
  turnId : Text
  key : Text
  messageId : Option Text
  occurredAt : Text
  sequence : ℕ
  delta : Text
  deriving DecidableEq

namespace Delivery

def messageKey (d : Delivery) : Text := d.messageId.getD identityFree

/-- The same event of a turn. -/
def same (d d' : Delivery) : Bool := d.sessionId == d'.sessionId && d.turnId == d'.turnId && d.key == d'.key

def inTurn (sessionId turnId : Text) (d : Delivery) : Bool := d.sessionId == sessionId && d.turnId == turnId

/-- The entry of the provider's book. -/
def entry (d : Delivery) : Text × DeliveredTextEvent :=
  (d.sessionId ++ Text.of ":" ++ d.key,⟨d.delta,d.messageId,d.occurredAt,d.sequence⟩)

end Delivery

/-- Each event once, as it was first handed out. -/
def firstDeliveries (ds : List Delivery) : List Delivery :=
  ds.foldl (fun kept d => if kept.any d.same then kept else kept ++ [d]) []

/-- What was handed out of a message under numbers up to the cursor, in their order. -/
def deliveriesTo (ds : List Delivery) (sessionId : Text) (cursor : ℕ) (turnId key : Text) : List Delivery :=
  ((firstDeliveries ds).filter fun d => d.inTurn sessionId turnId && d.messageKey == key && decide (d.sequence ≤ cursor)).insertionSort
    fun l r => l.sequence ≤ r.sequence

/-- The text that a reader with the cursor has of a message. -/
def deliveredText (ds : List Delivery) (sessionId : Text) (afterSequence : Option ℕ) (turnId key : Text) : Option Text :=
  afterSequence.bind fun cursor =>
    let delivered := deliveriesTo ds sessionId cursor turnId key
    if delivered.isEmpty then none else some (delivered.flatMap (·.delta))

section Operations
variable {ν : Type}

/-- The text of an event that is recorded. -/
def delivery (sessionId : Text) (sourceMessageId : Option Text) (e : RuntimeEventEnvelope ν) : Option Delivery :=
  (turnText e).map fun p => {
    sessionId := sessionId
    turnId := p.1
    key := runtimeEventSequenceKey e
    messageId := eventMessageId sourceMessageId e
    occurredAt := e.occurredAt
    sequence := e.sequence
    delta := p.2 }

/-- What changes the numbers and the books of delivered text: a page, a stream, an event sent live. -/
inductive ReplayOperation (ν : Type)
  | resequence (call : ResequenceCall ν)
  | record (sessionId : Text) (events : List (RuntimeEventEnvelope ν)) (sourceMessageId : Option Text)

namespace ReplayOperation

def deliveries : ReplayOperation ν → List Delivery
  | resequence _ => []
  | record sessionId events sourceMessageId => events.filterMap (delivery sessionId sourceMessageId)

end ReplayOperation
namespace EventReplay

def apply (s : EventReplay) : ReplayOperation ν → EventReplay
  | .resequence call => (s.resequenceRuntimeEvents call.sessionId call.events call.sequenceFloor).2
  | .record sessionId events sourceMessageId => s.recordDeliveredText sessionId events sourceMessageId

/-- The state after some operations. -/
def after (operations : List (ReplayOperation ν)) : EventReplay := operations.foldl apply init

lemma after_append (operations later : List (ReplayOperation ν)) :
    after (operations ++ later) = later.foldl apply (after operations) := List.foldl_append

end EventReplay

/-- Everything that was recorded. -/
def deliveriesOf (operations : List (ReplayOperation ν)) : List Delivery := operations.flatMap (·.deliveries)

/-- No other session's turn is spelled as the session's turn is. -/
def SpelledApart (ds : List Delivery) (sessionId turnId : Text) : Prop :=
  ∀ d ∈ ds, EventReplay.turnKey d.sessionId d.turnId = EventReplay.turnKey sessionId turnId → d.sessionId = sessionId

instance decidableSpelledApart (ds : List Delivery) (sessionId turnId : Text) : Decidable (SpelledApart ds sessionId turnId) :=
  inferInstanceAs (Decidable (∀ d ∈ ds, _ → _))

end Operations
section First
variable {ds : List Delivery}

lemma firstDeliveries_concat (ds : List Delivery) (d : Delivery) : firstDeliveries (ds ++ [d]) =
    if (firstDeliveries ds).any d.same then firstDeliveries ds else firstDeliveries ds ++ [d] := by
  rw [firstDeliveries, List.foldl_append]
  rfl

/-- What is handed out later adds to what was handed out first. -/
lemma firstDeliveries_append (ds new : List Delivery) :
    ∃ added, firstDeliveries (ds ++ new) = firstDeliveries ds ++ added ∧ added ⊆ new := by
  induction new using List.reverseRecOn with
  | nil => exact ⟨[],by rw [List.append_nil, List.append_nil],List.Subset.refl _⟩
  | append_singleton new d ih =>
    obtain ⟨added,hfirst,hsub⟩ := ih
    rw [← List.append_assoc, firstDeliveries_concat, hfirst]
    split_ifs
    · exact ⟨added,rfl,List.Subset.trans hsub (List.subset_append_left _ _)⟩
    · exact ⟨added ++ [d],List.append_assoc _ _ _,List.append_subset.mpr ⟨List.Subset.trans hsub (List.subset_append_left _ _),
        List.subset_append_right _ _⟩⟩

/-- Of each event that was handed out there is a first time. -/
lemma exists_first {d : Delivery} (h : d ∈ ds) : ∃ d' ∈ firstDeliveries ds, d.same d' = true := by
  induction ds using List.reverseRecOn with
  | nil => cases h
  | append_singleton ds d' ih =>
    rw [firstDeliveries_concat]
    obtain h | h := List.mem_append.mp h
    · obtain ⟨first,hfirst,hsame⟩ := ih h
      split_ifs
      · exact ⟨first,hfirst,hsame⟩
      · exact ⟨first,List.mem_append_left _ hfirst,hsame⟩
    · obtain rfl := List.mem_singleton.mp h
      split_ifs with hany
      · exact List.any_eq_true.mp hany
      · exact ⟨d,List.mem_append_right _ List.mem_cons_self,by simp [Delivery.same]⟩

lemma firstDeliveries_apart (ds : List Delivery) :
    (firstDeliveries ds).Pairwise fun a b => b.same a = false := by
  induction ds using List.reverseRecOn with
  | nil => exact List.Pairwise.nil
  | append_singleton ds d ih =>
    rw [firstDeliveries_concat]
    split_ifs with hany
    · exact ih
    · refine List.pairwise_append.mpr ⟨ih,List.pairwise_singleton _ _,fun a ha b hb => ?_⟩
      obtain rfl := List.mem_singleton.mp hb
      rw [List.any_eq_true] at hany
      exact Bool.eq_false_iff.mpr fun hsame => hany ⟨a,ha,hsame⟩

/-- What was handed out of a message between two cursors, in the order of the numbers. -/
def deliveriesBetween (ds : List Delivery) (sessionId : Text) (cursor next : ℕ) (turnId key : Text) : List Delivery :=
  ((firstDeliveries ds).filter fun d => d.inTurn sessionId turnId && d.messageKey == key &&
    decide (cursor < d.sequence ∧ d.sequence ≤ next)).insertionSort fun l r => l.sequence ≤ r.sequence

lemma mem_deliveriesBetween {sessionId turnId key : Text} {cursor next : ℕ} {d : Delivery} :
    d ∈ deliveriesBetween ds sessionId cursor next turnId key ↔ d ∈ firstDeliveries ds ∧ d.sessionId = sessionId ∧
      d.turnId = turnId ∧ d.messageKey = key ∧ cursor < d.sequence ∧ d.sequence ≤ next := by
  rw [deliveriesBetween, List.mem_insertionSort, List.mem_filter, Delivery.inTurn]
  simp only [Bool.and_eq_true, beq_iff_eq, decide_eq_true_eq, and_assoc]

/-- Where a number is of one event, the order of the numbers is strict. -/
lemma deliveriesBetween_rising {sessionId turnId : Text} (hnumber : ∀ a ∈ firstDeliveries ds, ∀ b ∈ firstDeliveries ds,
      a.inTurn sessionId turnId = true → b.inTurn sessionId turnId = true → a.sequence = b.sequence → a.key = b.key)
    (cursor next : ℕ) (key : Text) :
    (deliveriesBetween ds sessionId cursor next turnId key).Pairwise fun a b => a.sequence < b.sequence := by
  have : IsTrans Delivery fun l r => l.sequence ≤ r.sequence := ⟨fun _ _ _ => Nat.le_trans⟩
  have : Std.Total fun l r : Delivery => l.sequence ≤ r.sequence := ⟨fun _ _ => Nat.le_total _ _⟩
  have hsorted : (deliveriesBetween ds sessionId cursor next turnId key).Pairwise fun a b => a.sequence ≤ b.sequence :=
    List.pairwise_insertionSort _ _
  have hsymm : ∀ {a b : Delivery}, b.same a = false → a.same b = false := by
    intro a b h
    rw [← h, Delivery.same, Delivery.same, Bool.beq_comm, Bool.beq_comm (a := a.turnId), Bool.beq_comm (a := a.key)]
  have hapart : (deliveriesBetween ds sessionId cursor next turnId key).Pairwise fun a b => b.same a = false :=
    ((List.perm_insertionSort _ _).pairwise_iff hsymm).mpr ((firstDeliveries_apart ds).filter _)
  refine (hsorted.and hapart).imp_of_mem fun {a b} ha hb hab => lt_of_le_of_ne hab.1 fun heq => ?_
  obtain ⟨ha,hsession,hturn,-⟩ := mem_deliveriesBetween.mp ha
  obtain ⟨hb,hsession',hturn',-⟩ := mem_deliveriesBetween.mp hb
  have hkey := hnumber a ha b hb (by simp [Delivery.inTurn, hsession, hturn]) (by simp [Delivery.inTurn, hsession', hturn']) heq
  have hsame : b.same a = true := by
    simp [Delivery.same, hsession, hturn, hsession', hturn', hkey]
  rw [hab.2] at hsame
  cases hsame

lemma sorted_split {l : List Delivery} (h : l.Pairwise fun a b => a.sequence ≤ b.sequence) (cursor : ℕ) :
    l = (l.filter fun d => decide (d.sequence ≤ cursor)) ++ l.filter fun d => decide (cursor < d.sequence) := by
  induction l with
  | nil => rfl
  | cons d l ih =>
    obtain ⟨hd,hl⟩ := List.pairwise_cons.mp h
    by_cases hle : d.sequence ≤ cursor
    · rw [List.filter_cons_of_pos (by simpa using hle), List.filter_cons_of_neg (by simpa using hle), List.cons_append, ← ih hl]
    · have hnone : l.filter (fun d => decide (d.sequence ≤ cursor)) = [] := by
        rw [List.filter_eq_nil_iff]
        intro d' hd'
        have habove := hd d' hd'
        simp only [decide_eq_true_eq]
        omega
      have hall : l.filter (fun d => decide (cursor < d.sequence)) = l := by
        rw [List.filter_eq_self]
        intro d' hd'
        have habove := hd d' hd'
        simp only [decide_eq_true_eq]
        omega
      rw [List.filter_cons_of_neg (by simpa using hle), List.filter_cons_of_pos (by simpa using hle), hnone, hall,
        List.nil_append]

lemma deliveriesTo_split (ds : List Delivery) (sessionId : Text) {cursor next : ℕ} (hle : cursor ≤ next) (turnId key : Text) :
    deliveriesTo ds sessionId next turnId key =
      deliveriesTo ds sessionId cursor turnId key ++ deliveriesBetween ds sessionId cursor next turnId key := by
  have : IsTrans Delivery fun l r => l.sequence ≤ r.sequence := ⟨fun _ _ _ => Nat.le_trans⟩
  have : Std.Total fun l r : Delivery => l.sequence ≤ r.sequence := ⟨fun _ _ => Nat.le_total _ _⟩
  have hsorted : (deliveriesTo ds sessionId next turnId key).Pairwise fun a b => a.sequence ≤ b.sequence :=
    List.pairwise_insertionSort _ _
  have hsplit := sorted_split hsorted cursor
  rw [deliveriesTo, insertionSort_filter, insertionSort_filter, List.filter_filter, List.filter_filter] at hsplit
  rw [deliveriesTo, hsplit, deliveriesTo, deliveriesBetween]
  congr 2
  · refine List.filter_congr fun d _ => ?_
    by_cases hd : d.sequence ≤ cursor
    · simp [hd, hd.trans hle]
    · simp [hd]
  · refine List.filter_congr fun d _ => ?_
    rw [Bool.decide_and, Bool.and_comm, Bool.and_assoc, Bool.and_comm (decide (d.sequence ≤ next))]

/-- What is handed out above the cursor is nothing to a reader with the cursor. -/
lemma deliveriesTo_append {new : List Delivery} (sessionId : Text) {cursor : ℕ} (h : ∀ d ∈ new, cursor < d.sequence)
    (turnId key : Text) : deliveriesTo (ds ++ new) sessionId cursor turnId key = deliveriesTo ds sessionId cursor turnId key := by
  obtain ⟨added,hfirst,hsub⟩ := firstDeliveries_append ds new
  have hnone : added.filter (fun d => d.inTurn sessionId turnId && d.messageKey == key && decide (d.sequence ≤ cursor)) = [] := by
    rw [List.filter_eq_nil_iff]
    intro d hd
    have habove := h d (hsub hd)
    simp only [Bool.and_eq_true, decide_eq_true_eq]
    omega
  rw [deliveriesTo, hfirst, List.filter_append, hnone, List.append_nil]
  rfl

end First
section Book
variable {ν : Type} {s : EventReplay} {ds : List Delivery} {sessionId turnId : Text}

namespace EventReplay

/-- What the provider's book has of a turn. -/
def book (s : EventReplay) (sessionId turnId : Text) : Dictionary Text DeliveredTextEvent :=
  (s.deliveredTextEventsByTurnIds.get? (turnKey sessionId turnId)).getD .empty

/-- The book of a turn holds what was first handed out of the turn. -/
def Books (s : EventReplay) (ds : List Delivery) (sessionId turnId : Text) : Prop :=
  (s.book sessionId turnId).entries = ((firstDeliveries ds).filter (Delivery.inTurn sessionId turnId)).map Delivery.entry

lemma turnKey_injective {turnId' : Text} (h : turnKey sessionId turnId = turnKey sessionId turnId') : turnId = turnId' :=
  List.append_cancel_left h

/-- In a book an event is known by its key. -/
lemma Books.isSome_iff (h : s.Books ds sessionId turnId) {d : Delivery} (hsession : d.sessionId = sessionId)
    (hturn : d.turnId = turnId) :
    ((s.book sessionId turnId).get? (sessionId ++ Text.of ":" ++ d.key)).isSome = (firstDeliveries ds).any d.same := by
  rw [Bool.eq_iff_iff, ← Dictionary.mem_keys_iff, Dictionary.keys, h, List.map_map, List.any_eq_true]
  simp only [List.mem_map, List.mem_filter, Delivery.inTurn, Delivery.same, Bool.and_eq_true, beq_iff_eq, Function.comp_apply,
    Delivery.entry]
  constructor
  · rintro ⟨d',⟨hmem,hsession',hturn'⟩,hkey⟩
    rw [hsession'] at hkey
    exact ⟨d',hmem,⟨hsession.trans hsession'.symm,hturn.trans hturn'.symm⟩,(List.append_cancel_left hkey).symm⟩
  · rintro ⟨d',hmem,⟨hsession',hturn'⟩,hkey⟩
    exact ⟨d',⟨hmem,hsession'.symm.trans hsession,hturn'.symm.trans hturn⟩,by rw [hkey, ← hsession', hsession]⟩

lemma Books.other (h : s.Books ds sessionId turnId) {d : Delivery} (hnot : d.inTurn sessionId turnId = false) :
    s.Books (ds ++ [d]) sessionId turnId := by
  rw [Books, h, firstDeliveries_concat]
  split_ifs
  · rfl
  · rw [List.filter_append, List.filter_singleton, hnot]
    exact congrArg _ (List.append_nil _).symm

lemma Books.recordText (h : s.Books ds sessionId turnId) {session : Text} {sourceMessageId : Option Text}
    {e : RuntimeEventEnvelope ν} (hapart : SpelledApart (ds ++ (delivery session sourceMessageId e).toList) sessionId turnId) :
    (EventReplay.recordText session sourceMessageId s e).Books (ds ++ (delivery session sourceMessageId e).toList)
      sessionId turnId := by
  unfold EventReplay.recordText
  cases ht : turnText e with
  | none =>
    rw [delivery, ht]
    simpa using h
  | some p =>
    obtain ⟨t,delta⟩ := p
    have hd : delivery session sourceMessageId e = some ⟨session,t,runtimeEventSequenceKey e,eventMessageId sourceMessageId e,
        e.occurredAt,e.sequence,delta⟩ := by
      rw [delivery, ht]
      rfl
    rw [hd, Option.toList_some] at hapart ⊢
    have hsession := hapart _ (List.mem_append_right _ List.mem_cons_self)
    dsimp only at hsession ⊢
    by_cases hkey : turnKey session t = turnKey sessionId turnId
    · obtain rfl := hsession hkey
      obtain rfl := turnKey_injective hkey
      have hsome := @Books.isSome_iff s ds session t h ⟨session,t,runtimeEventSequenceKey e,
        eventMessageId sourceMessageId e,e.occurredAt,e.sequence,delta⟩ rfl rfl
      dsimp only [book] at hsome
      rw [hsome, Books, firstDeliveries_concat]
      split_ifs with hany
      · exact h
      · have hnone : (s.book session t).get? (session ++ Text.of ":" ++ runtimeEventSequenceKey e) = none := by
          rw [← Option.not_isSome_iff_eq_none, book, hsome]
          exact hany
        rw [book, Dictionary.get?_set_self, Option.getD_some]
        refine (Dictionary.entries_set_of_none _ _ hnone).trans ?_
        rw [h, List.filter_append, List.map_append, List.filter_singleton]
        simp [Delivery.inTurn, Delivery.entry, eventMessageId]
    · have hnot : Delivery.inTurn sessionId turnId ⟨session,t,runtimeEventSequenceKey e,eventMessageId sourceMessageId e,
          e.occurredAt,e.sequence,delta⟩ = false := by
        rw [Delivery.inTurn, Bool.and_eq_false_iff, beq_eq_false_iff_ne, beq_eq_false_iff_ne, ← not_and_or]
        rintro ⟨rfl,rfl⟩
        exact hkey rfl
      refine Books.other ?_ hnot
      split_ifs
      · exact h
      · rw [Books, book]
        dsimp only
        rw [Dictionary.get?_set_of_ne _ _ (Ne.symm hkey)]
        exact h

lemma Books.recordDeliveredText (h : s.Books ds sessionId turnId) {session : Text} {sourceMessageId : Option Text}
    (events : List (RuntimeEventEnvelope ν))
    (hapart : SpelledApart (ds ++ events.filterMap (delivery session sourceMessageId)) sessionId turnId) :
    (s.recordDeliveredText session events sourceMessageId).Books (ds ++ events.filterMap (delivery session sourceMessageId))
      sessionId turnId := by
  induction events generalizing s ds with
  | nil =>
    rw [List.filterMap_nil, List.append_nil]
    exact h
  | cons e es ih =>
    have hcons : ds ++ (e :: es).filterMap (delivery session sourceMessageId) =
        (ds ++ (delivery session sourceMessageId e).toList) ++ es.filterMap (delivery session sourceMessageId) := by
      cases hd : delivery session sourceMessageId e <;> simp [hd]
    rw [hcons] at hapart ⊢
    exact ih (h.recordText fun d hd => hapart d (List.mem_append_left _ hd)) hapart

lemma books_operations (operations : List (ReplayOperation ν)) (hapart : SpelledApart (deliveriesOf operations) sessionId turnId) :
    (after operations).Books (deliveriesOf operations) sessionId turnId := by
  have hrun : ∀ (s : EventReplay) (ds : List Delivery), s.Books ds sessionId turnId →
      SpelledApart (ds ++ deliveriesOf operations) sessionId turnId →
        (operations.foldl apply s).Books (ds ++ deliveriesOf operations) sessionId turnId := by
    clear hapart
    induction operations with
    | nil =>
      intro s ds h _
      rwa [deliveriesOf, List.flatMap_nil, List.append_nil]
    | cons operation operations ih =>
      intro s ds h hapart
      rw [deliveriesOf, List.flatMap_cons, ← List.append_assoc] at hapart ⊢
      refine ih _ _ ?_ hapart
      cases operation with
      | resequence call =>
        rw [ReplayOperation.deliveries, List.append_nil]
        exact h
      | record session events sourceMessageId =>
        exact h.recordDeliveredText events fun d hd => hapart d (List.mem_append_left _ hd)
  exact hrun init [] rfl hapart

end EventReplay
end Book
section Groups
variable {l : List DeliveredTextEvent} {key : Text}

/-- A group has the texts of its message, and the id of one of them. -/
lemma get?_foldl_addDelivered (l : List DeliveredTextEvent) (key : Text) :
    ((l.foldl EventReplay.addDelivered .empty).get? key).map (·.text) =
      let texts := l.filter fun d => d.messageId.getD identityFree == key
      if texts.isEmpty then none else some (texts.flatMap (·.delta)) := by
  induction l using List.reverseRecOn with
  | nil => rfl
  | append_singleton l d ih =>
    rw [List.foldl_append, List.foldl_cons, List.foldl_nil, EventReplay.addDelivered, Dictionary.get?_set, List.filter_append]
    by_cases hkey : key = d.messageId.getD identityFree
    · subst hkey
      rw [if_pos rfl, Option.map_some, List.filter_singleton, beq_self_eq_true]
      dsimp only at ih ⊢
      rw [ih]
      split_ifs with hempty hboth hboth
      · simp at hboth
      · rw [List.isEmpty_iff.mp hempty]
        simp
      · simp at hboth
      · simp
    · have hnot : (d.messageId.getD identityFree == key) = false := beq_false_of_ne (Ne.symm hkey)
      rw [if_neg hkey, ih, List.filter_singleton, hnot]
      simp

lemma messageId_foldl_addDelivered {g : DeliveredTextGroup} (h : (l.foldl EventReplay.addDelivered .empty).get? key = some g) :
    ∃ d ∈ l, d.messageId = g.messageId ∧ d.messageId.getD identityFree = key := by
  induction l using List.reverseRecOn with
  | nil => cases h
  | append_singleton l d ih =>
    rw [List.foldl_append, List.foldl_cons, List.foldl_nil, EventReplay.addDelivered, Dictionary.get?_set] at h
    split_ifs at h with hkey
    · cases h
      exact ⟨d,List.mem_append_right _ List.mem_cons_self,rfl,hkey.symm⟩
    · obtain ⟨d',hmem,hd'⟩ := ih h
      exact ⟨d',List.mem_append_left _ hmem,hd'⟩

end Groups
section Delivered
variable {s : EventReplay} {ds : List Delivery} {sessionId turnId : Text}

namespace EventReplay

/-- What the groups of a turn are made of. -/
lemma Books.delivered (h : s.Books ds sessionId turnId) (cursor : ℕ) :
    ((s.book sessionId turnId).values.filter fun d => decide (d.sequence ≤ cursor)).insertionSort
        (fun l r => l.sequence ≤ r.sequence) =
      ((((firstDeliveries ds).filter (Delivery.inTurn sessionId turnId)).filter
        fun d => decide (d.sequence ≤ cursor)).insertionSort fun l r => l.sequence ≤ r.sequence).map fun d => d.entry.2 := by
  rw [Dictionary.values, h, List.map_map, List.filter_map, List.map_insertionSort (fun l r => l.sequence ≤ r.sequence)
    (fun l r : DeliveredTextEvent => l.sequence ≤ r.sequence) (fun d : Delivery => d.entry.2)]
  · rfl
  · exact fun _ _ _ _ => Iff.rfl

/-- The provider takes for delivered what was handed out. -/
theorem Books.deliveredTo_eq (h : s.Books ds sessionId turnId) (afterSequence : Option ℕ) (key : Text) :
    s.deliveredTo sessionId afterSequence turnId key = deliveredText ds sessionId afterSequence turnId key := by
  unfold deliveredTo deliveredText
  refine congrArg _ (funext fun cursor => ?_)
  have hbook := h.delivered cursor
  rw [book] at hbook
  rw [deliveredGroups, get?_foldl_addDelivered]
  dsimp only
  rw [hbook, List.filter_map, List.isEmpty_map, List.flatMap_map]
  have hfilter : ((((firstDeliveries ds).filter (Delivery.inTurn sessionId turnId)).filter
      fun d => decide (d.sequence ≤ cursor)).insertionSort fun l r => l.sequence ≤ r.sequence).filter
        ((fun d : DeliveredTextEvent => d.messageId.getD identityFree == key) ∘ fun d : Delivery => d.entry.2) =
      deliveriesTo ds sessionId cursor turnId key := by
    have : IsTrans Delivery fun l r => l.sequence ≤ r.sequence := ⟨fun _ _ _ => Nat.le_trans⟩
    have : Std.Total fun l r : Delivery => l.sequence ≤ r.sequence := ⟨fun _ _ => Nat.le_total _ _⟩
    rw [insertionSort_filter, List.filter_filter, List.filter_filter, deliveriesTo]
    congr 1
    refine List.filter_congr fun d _ => ?_
    simp only [Function.comp_apply, Delivery.entry, Delivery.messageKey]
    rw [Bool.and_comm, Bool.and_assoc]
  rw [hfilter]
  rfl

/-- A group is of a message that was handed out. -/
lemma Books.group_mem (h : s.Books ds sessionId turnId) {cursor : ℕ} {key : Text} {g : DeliveredTextGroup}
    (hg : (s.deliveredGroups (turnKey sessionId turnId) cursor).get? key = some g) :
    ∃ d ∈ firstDeliveries ds, d.inTurn sessionId turnId = true ∧ d.sequence ≤ cursor ∧ d.messageId = g.messageId ∧
      d.messageKey = key := by
  have hbook := h.delivered cursor
  rw [book] at hbook
  rw [deliveredGroups, hbook] at hg
  obtain ⟨x,hx,hid,hkey⟩ := messageId_foldl_addDelivered hg
  obtain ⟨d,hd,rfl⟩ := List.mem_map.mp hx
  obtain ⟨hd,hle⟩ := List.mem_filter.mp ((List.mem_insertionSort _).mp hd)
  obtain ⟨hd,hturn⟩ := List.mem_filter.mp hd
  exact ⟨d,hd,hturn,of_decide_eq_true hle,hid,hkey⟩

end EventReplay
end Delivered
end OmniagentPlus.OmnigentTransport
