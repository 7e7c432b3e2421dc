import OmniagentPlus.OmnigentTransport.PageCuts

/-! A page leaves the provider ready for the next one: the numbers it gave and the texts it recorded are
those that the reader has to do with. -/
namespace OmniagentPlus.OmnigentTransport
open OmniagentPlus.Foundation OmniagentPlus.CoreContracts

section Numbers
variable {ν : Type} {r : Reader}

/-- The key of a continuation has its event's id. -/
lemma key_reopened {x : RuntimeEventEnvelope ν} {p : Text × Text} (h : turnText x = some p) :
    runtimeEventSequenceKey (reopened x) = Text.of "text:" ++ (x.eventId ++ continuationMarker ++ decimal 0) := by
  obtain ⟨turnId,delta⟩ := p
  have hnone := beforeNumber_text_none x.eventId 0
  rw [reopened, h]
  dsimp only
  rw [runtimeEventSequenceKey, EventReplay.continuation]
  dsimp only
  rw [textSequenceId, Nat.sub_self, hnone]

lemma key_text {x : RuntimeEventEnvelope ν} {p : Text × Text} (h : turnText x = some p) :
    runtimeEventSequenceKey x = Text.of "text:" ++ textSequenceId x.eventId := by
  unfold turnText at h
  split at h
  · rename_i hpayload _
    rw [runtimeEventSequenceKey, hpayload]
  · cases h

lemma key_of_reopened {x y : RuntimeEventEnvelope ν} {p q : Text × Text} (hx : turnText x = some p) (hy : turnText y = some q)
    (h : runtimeEventSequenceKey (reopened x) = runtimeEventSequenceKey (reopened y)) :
    runtimeEventSequenceKey x = runtimeEventSequenceKey y := by
  rw [key_reopened hx, key_reopened hy, List.append_cancel_left_eq, List.append_cancel_right_eq,
    List.append_cancel_right_eq] at h
  rw [key_text hx, key_text hy, h]

lemma text_of_opens {earlier page : List (RuntimeEventEnvelope ν)} {x : RuntimeEventEnvelope ν}
    (h : r.opens earlier page x = true) : ∃ p, turnText x = some p := by
  obtain ⟨m,hm,-⟩ := (Option.any_eq_true _ _).mp h
  obtain ⟨p,hp,-⟩ := Option.map_eq_some_iff.mp hm
  exact ⟨p,hp⟩

variable {operations : List (ReplayOperation ν)} {sessionId : Text} {events front back page rest : List (RuntimeEventEnvelope ν)}
  {afterSequence : Option ℕ} {table : Dictionary Text ℕ}

/-- A page that was cut from what the reader lacks, and was numbered. -/
structure PageRead (operations : List (ReplayOperation ν)) (sessionId : Text) (events : List (RuntimeEventEnvelope ν))
    (afterSequence : Option ℕ) (r : Reader) (front back page rest : List (RuntimeEventEnvelope ν))
    (table : Dictionary Text ℕ) : Prop where
  ready : PageReady operations sessionId events afterSequence r
  numbers : Renumbered operations sessionId events afterSequence r table
  cut : PageCut r events front back page rest
  limit : PageBreak operations sessionId events r [] page rest
  nonempty : page ≠ []

/-- The operations with those of the page. -/
def afterPage (operations : List (ReplayOperation ν)) (sessionId : Text) (events : List (RuntimeEventEnvelope ν)) (r : Reader)
    (table : Dictionary Text ℕ) (page : List (RuntimeEventEnvelope ν)) : List (ReplayOperation ν) :=
  operations ++ pageOperations sessionId events r (page.map (renumber table))

def pageCursor (afterSequence : Option ℕ) (table : Dictionary Text ℕ) (page : List (RuntimeEventEnvelope ν)) : ℕ :=
  cursorAfter afterSequence (page.map (renumber table))

/-- What the page hands out. -/
def pageDeliveries (sessionId : Text) (table : Dictionary Text ℕ) (page : List (RuntimeEventEnvelope ν)) : List Delivery :=
  (page.map (renumber table)).filterMap (delivery sessionId none)

lemma deliveriesOf_afterPage : deliveriesOf (afterPage operations sessionId events r table page) =
    deliveriesOf operations ++ pageDeliveries sessionId table page := by
  rw [afterPage, deliveriesOf, List.flatMap_append]
  exact congrArg _ (List.append_nil _)

lemma mem_pageDeliveries {d : Delivery} : d ∈ pageDeliveries sessionId table page ↔ ∃ x ∈ page, ∃ delta,
    turnText x = some (d.turnId,delta) ∧ d = ⟨sessionId,d.turnId,runtimeEventSequenceKey x,eventMessageId none x,x.occurredAt,
      (renumber table x).sequence,delta⟩ := by
  rw [pageDeliveries, List.mem_filterMap]
  constructor
  · rintro ⟨_,hmem,hd⟩
    obtain ⟨x,hx,rfl⟩ := List.mem_map.mp hmem
    obtain ⟨⟨turnId,delta⟩,htext,rfl⟩ := Option.map_eq_some_iff.mp hd
    exact ⟨x,hx,delta,htext,rfl⟩
  · rintro ⟨x,hx,delta,htext,hd⟩
    refine ⟨renumber table x,List.mem_map_of_mem hx,?_⟩
    have htext' : turnText (renumber table x) = some (d.turnId,delta) := htext
    rw [delivery, htext', hd]
    rfl

/-- The texts handed out so far and those of the page. -/
lemma mem_deliveredIn_afterPage {d : Delivery}
    (hd : d ∈ deliveredIn (deliveriesOf (afterPage operations sessionId events r table page)) sessionId events) :
    d ∈ deliveredIn (deliveriesOf operations) sessionId events ∨ d ∈ pageDeliveries sessionId table page := by
  obtain ⟨hfirst,hin⟩ := mem_deliveredIn.mp hd
  rw [deliveriesOf_afterPage] at hfirst
  obtain ⟨added,hadded,hsub⟩ := firstDeliveries_append (deliveriesOf operations) (pageDeliveries sessionId table page)
  rw [hadded] at hfirst
  obtain hfirst | hfirst := List.mem_append.mp hfirst
  · exact Or.inl (mem_deliveredIn.mpr ⟨hfirst,hin⟩)
  · exact Or.inr (hsub hfirst)

namespace PageRead
variable (h : PageRead operations sessionId events afterSequence r front back page rest table)
include h

lemma sequences_afterPage :
    (EventReplay.after (afterPage operations sessionId events r table page)).sequences sessionId = table := by
  rw [afterPage, EventReplay.after_append]
  have hrecord := EventReplay.recordDeliveredText_numbers
    ((EventReplay.after operations).resequenceRuntimeEvents sessionId (r.replayed events) 0).2 sessionId
    (page.map (renumber table)) none
  exact (congrArg (fun all => (all.get? sessionId).getD .empty) hrecord.1).trans h.numbers.sequences

lemma page_sub {x : RuntimeEventEnvelope ν} (hx : x ∈ page) : x ∈ r.lacked events :=
  h.cut.lacked_eq ▸ List.mem_append_left _ hx

lemma rest_sub {x : RuntimeEventEnvelope ν} (hx : x ∈ rest) : x ∈ r.lacked events :=
  h.cut.lacked_eq ▸ List.mem_append_right _ hx

omit h in
lemma lacked_replayed {x : RuntimeEventEnvelope ν} (hx : x ∈ r.lacked events) : x ∈ r.replayed events :=
  (List.mem_filter.mp hx).1

lemma above {x : RuntimeEventEnvelope ν} (hx : x ∈ r.lacked events) : afterSequence.getD 0 < (renumber table x).sequence := by
  obtain ⟨hmem,hhas⟩ := List.mem_filter.mp hx
  exact of_decide_eq_true ((h.numbers.passed x hmem).trans hhas)

lemma rising : (page ++ rest).Pairwise fun a b => (renumber table a).sequence < (renumber table b).sequence :=
  h.cut.lacked_eq ▸ h.numbers.rising

lemma page_le {x : RuntimeEventEnvelope ν} (hx : x ∈ page) :
    (renumber table x).sequence ≤ pageCursor afterSequence table page := by
  have hpage : (page.map (renumber table)).Pairwise fun a b => a.sequence < b.sequence :=
    List.pairwise_map.mpr (List.pairwise_append.mp h.rising).1
  exact le_last hpage afterSequence _ (List.mem_map_of_mem hx)

/-- The cursor is the number of the last event of the page. -/
lemma exists_last : ∃ x ∈ page, (renumber table x).sequence = pageCursor afterSequence table page := by
  obtain ⟨init,last,rfl⟩ := (List.eq_nil_or_concat' page).resolve_left h.nonempty
  refine ⟨last,List.mem_append_right _ List.mem_cons_self,?_⟩
  rw [pageCursor, cursorAfter, List.map_append, List.map_singleton, List.getLast?_concat]
  rfl

lemma cursor_lt : afterSequence.getD 0 < pageCursor afterSequence table page := by
  obtain ⟨x,hx,hlast⟩ := h.exists_last
  rw [← hlast]
  exact h.above (h.page_sub hx)

lemma lt_rest {x : RuntimeEventEnvelope ν} (hx : x ∈ rest) :
    pageCursor afterSequence table page < (renumber table x).sequence := by
  obtain ⟨last,hlast,hcursor⟩ := h.exists_last
  rw [← hcursor]
  exact (List.pairwise_append.mp h.rising).2.2 last hlast x hx

lemma number_eq {x : RuntimeEventEnvelope ν} (hx : x ∈ r.replayed events) :
    (EventReplay.after (afterPage operations sessionId events r table page)).numberOf sessionId x =
      some (renumber table x).sequence := by
  rw [EventReplay.numberOf, h.sequences_afterPage]
  exact h.numbers.numbered x hx

/-- A continuation has no number before it is sent. -/
lemma number_reopened {x : RuntimeEventEnvelope ν} (hx : x ∈ rest) (hopens : r.opens [] page x = true) :
    (EventReplay.after (afterPage operations sessionId events r table page)).numberOf sessionId (reopened x) = none := by
  rw [EventReplay.numberOf, h.sequences_afterPage]
  cases hsome : table.get? (runtimeEventSequenceKey (reopened x)) with
  | none => rfl
  | some n =>
    obtain hold | ⟨y,hy,hkey⟩ := h.numbers.new _ n hsome
    · have hnone := h.limit.unnumbered x hx hopens
      rw [EventReplay.numberOf, hold] at hnone
      cases hnone
    · exact absurd hkey (h.limit.unused x hx hopens y hy)

/-- What is sent after the page. -/
lemma mem_replayed {x : RuntimeEventEnvelope ν} (hx : x ∈ (r.receive page).replayed events) :
    x ∈ undelivered r.texts [] front ∧ (r.receive page).has x = true ∨
      (∃ y ∈ undelivered r.texts front back, r.opens [] page y = false ∧ x = y) ∨
        ∃ y ∈ rest, r.opens [] page y = true ∧ x = reopened y := by
  rw [Reader.replayed, h.cut.events_eq, undelivered_append, List.mem_append, List.nil_append, h.cut.undelivered_back] at hx
  obtain hx | hx := hx
  · exact Or.inl (h.cut.mem_undelivered_front hx)
  · obtain ⟨y,hy,hxy⟩ := List.mem_flatMap.mp hx
    split_ifs at hxy with hopens hp
    · cases hxy
    · obtain rfl := List.mem_singleton.mp hxy
      exact Or.inr (Or.inr ⟨y,h.cut.mem_rest hy (PageCut.has_of_not_isPlain (by simpa using hp)),hopens,rfl⟩)
    · obtain rfl := List.mem_singleton.mp hxy
      exact Or.inr (Or.inl ⟨x,hy,by simpa using hopens,rfl⟩)

lemma back_replayed {x : RuntimeEventEnvelope ν} (hx : x ∈ undelivered r.texts front back) : x ∈ r.replayed events :=
  h.cut.replayed_eq ▸ List.mem_append_right _ hx

lemma pageDeliveries_range {d : Delivery} (hd : d ∈ pageDeliveries sessionId table page) :
    afterSequence.getD 0 < d.sequence ∧ d.sequence ≤ pageCursor afterSequence table page := by
  obtain ⟨x,hx,delta,-,hd⟩ := mem_pageDeliveries.mp hd
  rw [hd]
  exact ⟨h.above (h.page_sub hx),h.page_le hx⟩

/-- After the page the numbers are as they were before it. -/
theorem numbersReady : NumbersReady (afterPage operations sessionId events r table page) sessionId events
    (some (pageCursor afterSequence table page)) (r.receive page) := by
  refine ⟨fun d hd => ?_,fun x hx => ?_,?_,fun x _ _ => ?_⟩
  · rw [h.sequences_afterPage]
    obtain hd | hd := mem_deliveredIn_afterPage hd
    · exact h.numbers.kept _ _ (h.ready.numbers.booked d hd)
    · obtain ⟨x,hx,delta,-,hd⟩ := mem_pageDeliveries.mp hd
      rw [hd]
      exact h.numbers.numbered x (lacked_replayed (h.page_sub hx))
  · rw [Option.getD_some]
    have hhad : ∀ {y}, y ∈ r.replayed events → r.has y = true →
        (renumber table y).sequence ≤ pageCursor afterSequence table page := by
      intro y hy hhas
      have hpassed := h.numbers.passed y hy
      rw [hhas] at hpassed
      exact (Nat.not_lt.mp (of_decide_eq_false hpassed)).trans (Nat.le_of_lt h.cursor_lt)
    obtain ⟨hold,hhas⟩ | ⟨y,hy,-,rfl⟩ | ⟨y,hy,hopens,rfl⟩ := h.mem_replayed hx
    · have hreplayed : x ∈ r.replayed events := h.cut.replayed_eq ▸ List.mem_append_left _ hold
      rw [h.number_eq hreplayed, hhas, Option.any_some, decide_eq_true_eq]
      by_cases hhas : r.has x = true
      · exact hhad hreplayed hhas
      · apply h.page_le
        rw [← h.cut.page_eq]
        exact List.mem_filter.mpr ⟨hold,by simpa using hhas⟩
    · have hold := h.back_replayed hy
      rw [h.number_eq hold, h.cut.has_receive_eq hy, Option.any_some]
      cases hhas : r.has x with
      | true => exact decide_eq_true (hhad hold hhas)
      | false => exact decide_eq_false (Nat.not_le.mpr (h.lt_rest (h.cut.mem_rest hy hhas)))
    · have hplain := (PageCut.isPlain_reopened y).trans (h.limit.text y hy hopens)
      rw [h.number_reopened hy hopens, PageCut.has_of_not_isPlain hplain]
      rfl
  · have htext : ∀ e ∈ rest, r.opens [] page e = true → isPlain e = false := h.limit.text
    have hdistinct := (List.pairwise_append.mp h.cut.distinct).2.1
    have hrising := (List.pairwise_append.mp h.rising).2.1
    rw [h.cut.lacked_receive htext, List.pairwise_map]
    refine ((hdistinct.and hrising).and h.limit.together).imp_of_mem fun {a b} ha hb hab => ?_
    obtain ⟨⟨hkeys,hlt⟩,htogether⟩ := hab
    have hreplayed : ∀ {x}, x ∈ rest → x ∈ r.replayed events := fun hx => lacked_replayed (h.rest_sub hx)
    cases hopensb : r.opens [] page b with
    | true =>
      have hb' : r.renew page b = reopened b := if_pos hopensb
      rw [hb', h.number_reopened hb hopensb]
      refine ⟨?_,fun n hn => (nomatch hn)⟩
      cases hopensa : r.opens [] page a with
      | true =>
        rw [show r.renew page a = reopened a from if_pos hopensa]
        obtain ⟨p,hp⟩ := text_of_opens hopensa
        obtain ⟨q,hq⟩ := text_of_opens hopensb
        exact fun hkey => hkeys (key_of_reopened hp hq hkey)
      | false =>
        rw [show r.renew page a = a from if_neg (by rw [hopensa]; exact Bool.false_ne_true)]
        exact h.limit.unused b hb hopensb a (hreplayed ha)
    | false =>
      have hopensa : r.opens [] page a = false := by
        by_contra hopens
        rw [htogether (by simpa using hopens)] at hopensb
        cases hopensb
      rw [show r.renew page a = a from if_neg (by rw [hopensa]; exact Bool.false_ne_true),
        show r.renew page b = b from if_neg (by rw [hopensb]; exact Bool.false_ne_true), h.number_eq (hreplayed ha),
        h.number_eq (hreplayed hb)]
      refine ⟨hkeys,fun n hn => ⟨_,rfl,?_⟩⟩
      cases hn
      exact hlt
  · obtain ⟨last,hlast,hcursor⟩ := h.exists_last
    have hnumbering := EventReplay.numbered_operations EventReplay.numbered_init
      (afterPage operations sessionId events r table page) sessionId
    have hnumber := h.number_eq (lacked_replayed (h.page_sub hlast))
    rw [hcursor] at hnumber
    exact (hnumbering.bounds _ _ hnumber).2

end PageRead
end Numbers
section Texts
variable {ν : Type} {r : Reader} {operations : List (ReplayOperation ν)} {sessionId : Text}
  {events front back page rest : List (RuntimeEventEnvelope ν)} {afterSequence : Option ℕ} {table : Dictionary Text ℕ}

/-- What is sent is of an event of the history, and of its message. -/
lemma origin {D : Text → Text → Option Text} {x : RuntimeEventEnvelope ν} {es before : List (RuntimeEventEnvelope ν)}
    (hnamed : NamedTexts es) (hx : x ∈ undelivered D before es) :
    ∃ e ∈ es, (turnText e).map Prod.fst = (turnText x).map Prod.fst ∧ eventMessageId none e = eventMessageId none x := by
  induction es generalizing before with
  | nil => cases hx
  | cons e es ih =>
    rw [undelivered, List.mem_append] at hx
    obtain hx | hx := hx
    · refine ⟨e,List.mem_cons_self,?_⟩
      unfold cut at hx
      cases ht : turnText e with
      | none =>
        rw [ht] at hx
        obtain rfl := List.mem_singleton.mp hx
        exact ⟨by rw [ht],rfl⟩
      | some p =>
        obtain ⟨turnId,delta⟩ := p
        rw [ht] at hx
        dsimp only at hx
        split at hx
        · obtain rfl := List.mem_singleton.mp hx
          exact ⟨by rw [ht],rfl⟩
        · split_ifs at hx
          · cases hx
          · obtain rfl := List.mem_singleton.mp hx
            refine ⟨?_,(runtimeTextMessageId_continuation (hnamed e List.mem_cons_self (by rw [ht]; rfl)) _).symm⟩
            rw [EventReplay.continuation, turnText_withText ht]
            rfl
    · obtain ⟨f,hf,hsame⟩ := ih (fun f hf => hnamed f (List.mem_cons_of_mem e hf)) hx
      exact ⟨f,List.mem_cons_of_mem e hf,hsame⟩

/-- An event of a message of which the reader has nothing is sent. -/
lemma mem_undelivered_of_none {D : Text → Text → Option Text} {e : RuntimeEventEnvelope ν} {p : Text × Text}
    (hp : turnText e = some p) (hnone : D p.1 (messageKey e) = none) {es before : List (RuntimeEventEnvelope ν)} (he : e ∈ es) :
    e ∈ undelivered D before es := by
  induction es generalizing before with
  | nil => cases he
  | cons f es ih =>
    rw [undelivered, List.mem_append]
    obtain rfl | he := List.mem_cons.mp he
    · left
      rw [cut, hp]
      dsimp only
      rw [hnone]
      exact List.mem_cons_self
    · exact Or.inr (ih he)

/-- A text that goes along with a message still does with what the message's front adds to it. -/
lemma agree_append {had whole front : Text} (h : Agree had whole) (hfront : front <+: whole) :
    Agree (had ++ front.drop had.length) whole := by
  obtain hle | hle := Nat.le_total front.length had.length
  · rwa [List.drop_eq_nil_of_le hle, List.append_nil]
  · obtain hhad | hwhole := h
    · obtain ⟨more,rfl⟩ := List.prefix_of_prefix_length_le hhad hfront hle
      rw [List.drop_left]
      exact Or.inl hfront
    · have heq := hwhole.eq_of_length (Nat.le_antisymm hwhole.length_le (hfront.length_le.trans' hle))
      subst heq
      rw [List.drop_eq_nil_of_le hfront.length_le, List.append_nil]
      exact Or.inl List.prefix_rfl

lemma eq_of_key {l : List (RuntimeEventEnvelope ν)}
    (hl : l.Pairwise fun a b => runtimeEventSequenceKey a ≠ runtimeEventSequenceKey b) {a b : RuntimeEventEnvelope ν}
    (ha : a ∈ l) (hb : b ∈ l) (hkey : runtimeEventSequenceKey a = runtimeEventSequenceKey b) : a = b :=
  List.inj_on_of_nodup_map (List.pairwise_map.mpr hl) ha hb hkey

lemma currentText_eq_flatten (page : List (RuntimeEventEnvelope ν)) (turnId key : Text) (table : Dictionary Text ℕ) :
    (page.filterMap fun x => (chunk none turnId key x).map fun delta => ((renumber table x).sequence,delta)).flatMap Prod.snd =
      currentText none page turnId key := by
  induction page with
  | nil => rfl
  | cons x page ih =>
    rw [currentText_cons, ← ih]
    cases hchunk : chunk none turnId key x <;> simp [hchunk]

namespace PageRead
variable (h : PageRead operations sessionId events afterSequence r front back page rest table)
include h

/-- A text handed out beyond the old cursor is one that the reader lacked, under its number. -/
lemma exists_lacked {d : Delivery}
    (hd : d ∈ deliveredIn (deliveriesOf (afterPage operations sessionId events r table page)) sessionId events)
    (habove : afterSequence.getD 0 < d.sequence) : ∃ u ∈ r.lacked events, runtimeEventSequenceKey u = d.key ∧
      turnText u = some (d.turnId,d.delta) ∧ eventMessageId none u = d.messageId ∧ (renumber table u).sequence = d.sequence := by
  obtain hd | hd := mem_deliveredIn_afterPage hd
  · obtain ⟨u,hu,hkey,htext,hid⟩ := h.ready.texts.ahead d hd habove
    have hnumber := h.numbers.numbered u (lacked_replayed hu)
    rw [hkey, h.numbers.kept _ _ (h.ready.numbers.booked d hd)] at hnumber
    exact ⟨u,hu,hkey,htext,hid,(Option.some.inj hnumber).symm⟩
  · obtain ⟨u,hu,delta,htext,hd⟩ := mem_pageDeliveries.mp hd
    rw [hd]
    rw [hd] at htext
    exact ⟨u,h.page_sub hu,rfl,htext,rfl,rfl⟩

lemma mem_page_of_le {u : RuntimeEventEnvelope ν} (hu : u ∈ r.lacked events)
    (hle : (renumber table u).sequence ≤ pageCursor afterSequence table page) : u ∈ page := by
  rw [h.cut.lacked_eq] at hu
  obtain hu | hu := List.mem_append.mp hu
  · exact hu
  · exact absurd hle (Nat.not_le.mpr (h.lt_rest hu))

lemma booked {d : Delivery}
    (hd : d ∈ deliveredIn (deliveriesOf (afterPage operations sessionId events r table page)) sessionId events) :
    table.get? d.key = some d.sequence := by
  rw [← h.sequences_afterPage]
  exact h.numbersReady.booked d hd

/-- What was handed out of a message between the cursors is what the page has of it. -/
lemma deliveriesBetween_eq {turnId : Text} (hturn : turnId ∈ turnsOf events) (key : Text) :
    (deliveriesBetween (deliveriesOf (afterPage operations sessionId events r table page)) sessionId (afterSequence.getD 0)
        (pageCursor afterSequence table page) turnId key).map (fun d => (d.sequence,d.delta)) =
      page.filterMap fun x => (chunk none turnId key x).map fun delta => ((renumber table x).sequence,delta) := by
  have hnumbering := EventReplay.numbered_operations EventReplay.numbered_init
    (afterPage operations sessionId events r table page) sessionId
  rw [← EventReplay.after, h.sequences_afterPage] at hnumbering
  have hin : ∀ {d}, d ∈ firstDeliveries (deliveriesOf (afterPage operations sessionId events r table page)) →
      d.sessionId = sessionId → d.turnId = turnId →
        d ∈ deliveredIn (deliveriesOf (afterPage operations sessionId events r table page)) sessionId events :=
    fun hd hsession hturnd => mem_deliveredIn.mpr ⟨hd,hsession,hturnd ▸ hturn⟩
  have : Std.Irrefl fun a b : ℕ × Text => a.1 < b.1 := ⟨fun _ => Nat.lt_irrefl _⟩
  refine List.Pairwise.eq_of_mem_iff (r := fun a b : ℕ × Text => a.1 < b.1) ?_ ?_ fun p => ?_
  · refine List.pairwise_map.mpr (deliveriesBetween_rising (fun a ha b hb hina hinb heq => ?_) _ _ key)
    simp only [Delivery.inTurn, Bool.and_eq_true, beq_iff_eq] at hina hinb
    have hnumber := h.booked (hin ha hina.1 hina.2)
    rw [heq] at hnumber
    exact hnumbering.injective _ _ _ hnumber (h.booked (hin hb hinb.1 hinb.2))
  · refine List.Pairwise.filterMap _ (fun a b hlt p hp q hq => ?_) (List.pairwise_append.mp h.rising).1
    obtain ⟨_,-,rfl⟩ := Option.map_eq_some_iff.mp hp
    obtain ⟨_,-,rfl⟩ := Option.map_eq_some_iff.mp hq
    exact hlt
  · simp only [List.mem_map, List.mem_filterMap, mem_deliveriesBetween, Option.map_eq_some_iff]
    constructor
    · rintro ⟨d,⟨hfirst,hsession,hturnd,hkey,habove,hle⟩,rfl⟩
      obtain ⟨u,hu,-,htext,hid,hnumber⟩ := h.exists_lacked (hin hfirst hsession hturnd) habove
      refine ⟨u,h.mem_page_of_le hu (hnumber ▸ hle),d.delta,chunk_eq_some.mpr ⟨hturnd ▸ htext,?_⟩,by rw [hnumber]⟩
      rw [hid]
      exact hkey
    · rintro ⟨u,hu,delta,hchunk,rfl⟩
      obtain ⟨htext,hkey⟩ := chunk_eq_some.mp hchunk
      -- The text of the page is recorded, or was before it.
      have hmem : (⟨sessionId,turnId,runtimeEventSequenceKey u,eventMessageId none u,u.occurredAt,(renumber table u).sequence,
          delta⟩ : Delivery) ∈ deliveriesOf (afterPage operations sessionId events r table page) := by
        rw [deliveriesOf_afterPage]
        exact List.mem_append_right _ (mem_pageDeliveries.mpr ⟨u,hu,delta,htext,rfl⟩)
      obtain ⟨d,hfirst,hsame⟩ := exists_first hmem
      simp only [Delivery.same, Bool.and_eq_true, beq_iff_eq] at hsame
      obtain ⟨⟨hsession,hturnd⟩,hkeyd⟩ := hsame
      have hd := hin hfirst hsession.symm hturnd.symm
      have hnumber := h.booked hd
      rw [← hkeyd, h.numbers.numbered u (lacked_replayed (h.page_sub hu))] at hnumber
      have hsequence := Option.some.inj hnumber
      have habove : afterSequence.getD 0 < d.sequence := hsequence ▸ h.above (h.page_sub hu)
      obtain ⟨u',hu',hkey',htext',hid',-⟩ := h.exists_lacked hd habove
      obtain rfl := eq_of_key (h.ready.numbers.order.imp fun hab => hab.1) hu' (h.page_sub hu) (hkey'.trans hkeyd.symm)
      rw [htext] at htext'
      cases htext'
      refine ⟨d,⟨hfirst,hsession.symm,hturnd.symm,?_,habove,hsequence ▸ h.page_le hu⟩,by rw [hsequence]⟩
      rw [Delivery.messageKey, ← hid']
      exact hkey

/-- What the reader had of a message is what was handed out of it up to its cursor. -/
lemma texts_eq {turnId key : Text} (hturn : turnId ∈ turnsOf events)
    (htexts : r.texts turnId key = deliveredText (deliveriesOf operations) sessionId afterSequence turnId key) :
    r.texts turnId key =
      if (deliveriesTo (deliveriesOf operations) sessionId (afterSequence.getD 0) turnId key).isEmpty then none
      else some ((deliveriesTo (deliveriesOf operations) sessionId (afterSequence.getD 0) turnId key).flatMap (·.delta)) := by
  rw [htexts]
  cases afterSequence with
  | some cursor => rfl
  | none =>
    have hnil : deliveriesTo (deliveriesOf operations) sessionId 0 turnId key = [] := by
      rw [List.eq_nil_iff_forall_not_mem]
      intro d hd
      rw [deliveriesTo, List.mem_insertionSort, List.mem_filter] at hd
      simp only [Delivery.inTurn, Bool.and_eq_true, beq_iff_eq, decide_eq_true_eq] at hd
      obtain ⟨hfirst,⟨⟨hsession,rfl⟩,-⟩,hle⟩ := hd
      have hnumber := h.ready.numbers.booked d (mem_deliveredIn.mpr ⟨hfirst,hsession,hturn⟩)
      have hbounds := (EventReplay.numbered_operations EventReplay.numbered_init operations sessionId).bounds _ _ hnumber
      omega
    rw [Option.getD_none, hnil]
    rfl

/-- After the page the reader has of each message what was handed out of it. -/
lemma texts_afterPage {turnId key : Text} (hturn : turnId ∈ turnsOf events)
    (htexts : r.texts turnId key = deliveredText (deliveriesOf operations) sessionId afterSequence turnId key) :
    (r.receive page).texts turnId key = deliveredText (deliveriesOf (afterPage operations sessionId events r table page))
      sessionId (some (pageCursor afterSequence table page)) turnId key := by
  have hbetween := h.deliveriesBetween_eq hturn key
  have hold := h.texts_eq hturn htexts
  have hkept : deliveriesTo (deliveriesOf (afterPage operations sessionId events r table page)) sessionId
      (afterSequence.getD 0) turnId key = deliveriesTo (deliveriesOf operations) sessionId (afterSequence.getD 0) turnId key := by
    rw [deliveriesOf_afterPage]
    exact deliveriesTo_append sessionId (fun d hd => (h.pageDeliveries_range hd).1) turnId key
  rw [deliveredText, Option.bind_some, deliveriesTo_split _ sessionId (Nat.le_of_lt h.cursor_lt), hkept, Reader.receive_texts]
  generalize deliveriesTo (deliveriesOf operations) sessionId (afterSequence.getD 0) turnId key = had at hold ⊢
  generalize deliveriesBetween _ sessionId (afterSequence.getD 0) _ turnId key = brought at hbetween ⊢
  have htext : brought.flatMap (·.delta) = currentText none page turnId key := by
    rw [← currentText_eq_flatten page turnId key table, ← hbetween, List.flatMap_map]
  have hempty : (had ++ brought).isEmpty = (had.isEmpty && brought.isEmpty) := by
    cases had <;> rfl
  dsimp only
  rw [List.flatMap_append, htext, hempty]
  by_cases hin : (turnId,key) ∈ page.filterMap messageOf
  · have hsome : brought.isEmpty = false := by
      obtain ⟨x,hx,hmessage⟩ := List.mem_filterMap.mp hin
      obtain ⟨⟨t,delta⟩,ht,heq⟩ := Option.map_eq_some_iff.mp hmessage
      cases heq
      have hchunk : chunk none t (messageKey x) x = some delta := chunk_eq_some.mpr ⟨ht,rfl⟩
      have hmem : ((renumber table x).sequence,delta) ∈ brought.map (fun d => (d.sequence,d.delta)) := by
        rw [hbetween]
        exact List.mem_filterMap.mpr ⟨x,hx,by rw [hchunk]; rfl⟩
      rw [← Bool.not_eq_true, List.isEmpty_iff]
      rintro rfl
      cases hmem
    rw [if_pos hin, hsome, Bool.and_false, if_neg Bool.false_ne_true, hold]
    split_ifs with hempty
    · rw [List.isEmpty_iff.mp hempty]
      rfl
    · rfl
  · have hnone : brought = [] := by
      rw [← List.map_eq_nil_iff (f := fun d : Delivery => (d.sequence,d.delta)), hbetween, List.filterMap_eq_nil_iff]
      intro x hx
      cases hchunk : chunk none turnId key x with
      | none => rfl
      | some delta =>
        obtain ⟨ht,hkey⟩ := chunk_eq_some.mp hchunk
        refine absurd (List.mem_filterMap.mpr ⟨x,hx,?_⟩) hin
        rw [messageOf, ht]
        exact congrArg (fun key => some (turnId,key)) hkey
    rw [if_neg hin, currentText_of_not_mem hin, hnone, List.append_nil, hold]
    simp

/-- After the page the texts are as they were before it. -/
theorem textsReady : TextsReady (afterPage operations sessionId events r table page) sessionId events
    (some (pageCursor afterSequence table page)) (r.receive page) := by
  have hturn : ∀ {e}, e ∈ events → ∀ {p}, p ∈ turnText e → p.1 ∈ turnsOf events :=
    fun he p hp => mem_turnsOf.mpr ⟨_,he,p.2,hp⟩
  refine ⟨h.ready.texts.named,fun turnId hturnId d hd hkey => ?_,fun d hd hle => ?_,fun e he p hp => ?_,
    fun e he p hp text htext => ?_,fun e he p hp hdelta hsome => ?_,fun d hd habove => ?_⟩
  · rw [deliveriesOf_afterPage] at hd
    obtain hd | hd := List.mem_append.mp hd
    · exact h.ready.texts.spelled turnId hturnId d hd hkey
    · obtain ⟨x,-,delta,-,hd⟩ := mem_pageDeliveries.mp hd
      rw [hd]
  · by_cases hold : d.sequence ≤ afterSequence.getD 0
    · obtain hd | hd := mem_deliveredIn_afterPage hd
      · exact h.ready.texts.known d hd hold
      · exact absurd hold (Nat.not_le.mpr (h.pageDeliveries_range hd).1)
    · obtain ⟨u,hu,-,htext,hid,-⟩ := h.exists_lacked hd (Nat.not_le.mp hold)
      obtain ⟨e,he,hsame,hmessage⟩ := origin h.cut.named (lacked_replayed hu)
      exact ⟨e,he,by rw [hsame, htext]; rfl,hmessage.trans hid⟩
  · exact h.texts_afterPage (hturn he hp) (h.ready.texts.texts e he p hp)
  · rw [Option.mem_def, Reader.receive_texts] at htext
    split_ifs at htext with hin
    · obtain rfl := Option.some.inj htext
      rw [h.cut.currentText_page]
      have hfront : currentText none front p.1 (messageKey e) <+: currentText none events p.1 (messageKey e) := by
        rw [h.cut.events_eq, currentText_append]
        exact List.prefix_append _ _
      have hagree : Agree ((r.texts p.1 (messageKey e)).getD []) (currentText none events p.1 (messageKey e)) := by
        cases htexts : r.texts p.1 (messageKey e) with
        | none => exact Or.inl List.nil_prefix
        | some text => exact h.ready.texts.agree e he p hp text htexts
      exact agree_append hagree hfront
    · exact h.ready.texts.agree e he p hp text htext
  · cases htexts : r.texts p.1 (messageKey e) with
    | some text =>
      have hhas := h.ready.texts.empty e he p hp hdelta (by rw [htexts]; rfl)
      exact (Reader.has_receive page e).mpr (Or.inl hhas)
    | none =>
      rw [Reader.receive_texts, htexts] at hsome
      split_ifs at hsome with hin
      · -- A text of no characters in a message that the page opens is in the page.
        have hplain : isPlain e = true := by
          obtain ⟨turnId,delta⟩ := p
          rw [isPlain_of_text hp]
          exact List.isEmpty_iff.mpr hdelta
        have hopens : r.opens [] page e = true := by
          have hmessage : messageOf e = some (p.1,messageKey e) := by rw [messageOf, show turnText e = some p from hp]; rfl
          rw [Reader.opens, hmessage]
          exact decide_eq_true ⟨htexts,List.not_mem_nil,hin⟩
        by_cases hhas : r.has e = true
        · exact (Reader.has_receive page e).mpr (Or.inl hhas)
        · have hlacked : e ∈ r.lacked events :=
            List.mem_filter.mpr ⟨mem_undelivered_of_none hp htexts he,by simpa using hhas⟩
          rw [h.cut.lacked_eq] at hlacked
          obtain hpage | hrest := List.mem_append.mp hlacked
          · exact (Reader.has_receive page e).mpr (Or.inr ⟨hplain,e,hpage,hplain,rfl⟩)
          · rw [h.limit.text e hrest hopens] at hplain
            cases hplain
      · cases hsome
  · rw [Option.getD_some] at habove
    obtain ⟨u,hu,hkey,htext,hid,hnumber⟩ := h.exists_lacked hd (h.cursor_lt.trans habove)
    have hrest : u ∈ rest := by
      rw [h.cut.lacked_eq] at hu
      refine (List.mem_append.mp hu).resolve_left fun hpage => ?_
      exact absurd (hnumber ▸ h.page_le hpage) (Nat.not_le.mpr habove)
    have hopens : r.opens [] page u = false := by
      by_contra hopens
      obtain hd | hd := mem_deliveredIn_afterPage hd
      · exact h.limit.unrecorded u hrest (by simpa using hopens) d hd hkey.symm
      · exact absurd (h.pageDeliveries_range hd).2 (Nat.not_le.mpr habove)
    rw [h.cut.lacked_receive h.limit.text]
    refine ⟨u,List.mem_map.mpr ⟨u,hrest,if_neg (by rw [hopens]; exact Bool.false_ne_true)⟩,hkey,htext,hid⟩

theorem pageReady : PageReady (afterPage operations sessionId events r table page) sessionId events
    (some (pageCursor afterSequence table page)) (r.receive page) := ⟨h.textsReady,h.numbersReady⟩

end PageRead
end Texts
section Next
variable {ν : Type} {r : Reader} {operations : List (ReplayOperation ν)} {sessionId : Text}
  {events front back page rest : List (RuntimeEventEnvelope ν)} {afterSequence : Option ℕ} {table : Dictionary Text ℕ}

/-- An event of a message of which the reader has nothing is sent as it is in the history. -/
lemma mem_of_mem_undelivered {D : Text → Text → Option Text} {x : RuntimeEventEnvelope ν}
    {es before : List (RuntimeEventEnvelope ν)} (hnamed : NamedTexts es) (hx : x ∈ undelivered D before es) {m : Text × Text}
    (hm : messageOf x = some m) (hnone : D m.1 m.2 = none) : x ∈ es := by
  induction es generalizing before with
  | nil => cases hx
  | cons e es ih =>
    rw [undelivered, List.mem_append] at hx
    obtain hx | hx := hx
    · unfold cut at hx
      cases ht : turnText e with
      | none =>
        rw [ht] at hx
        exact List.mem_cons.mpr (Or.inl (List.mem_singleton.mp hx))
      | some p =>
        obtain ⟨turnId,delta⟩ := p
        rw [ht] at hx
        dsimp only at hx
        cases htexts : D turnId (messageKey e) with
        | none =>
          rw [htexts] at hx
          exact List.mem_cons.mpr (Or.inl (List.mem_singleton.mp hx))
        | some text =>
          rw [htexts] at hx
          dsimp only at hx
          split_ifs at hx
          · cases hx
          · obtain rfl := List.mem_singleton.mp hx
            rw [messageOf_continuation ht (hnamed e List.mem_cons_self (by rw [ht]; rfl))] at hm
            cases hm
            rw [htexts] at hnone
            cases hnone
    · exact List.mem_cons_of_mem e (ih (fun f hf => hnamed f (List.mem_cons_of_mem e hf)) hx)

namespace PageRead
variable (h : PageRead operations sessionId events afterSequence r front back page rest table)
include h

lemma messageOf_renew {x : RuntimeEventEnvelope ν} (hx : x ∈ rest) : messageOf (r.renew page x) = messageOf x := by
  unfold Reader.renew
  split_ifs with hopens
  · obtain ⟨m,hm,hnone⟩ := (Option.any_eq_true _ _).mp hopens
    obtain ⟨⟨turnId,delta⟩,ht,rfl⟩ := Option.map_eq_some_iff.mp hm
    have hmem := mem_of_mem_undelivered h.cut.named (lacked_replayed (h.rest_sub hx)) hm (of_decide_eq_true hnone).1
    rw [reopened, ht]
    exact (messageOf_continuation ht (h.cut.named x hmem (by rw [ht]; rfl)) _ _).trans hm.symm
  · rfl

lemma filterMap_renew {l : List (RuntimeEventEnvelope ν)} (hl : l ⊆ rest) :
    (l.map (r.renew page)).filterMap messageOf = l.filterMap messageOf := by
  rw [List.filterMap_map]
  exact List.filterMap_congr fun x hx => h.messageOf_renew (hl hx)

/-- What a later page opens was opened neither by this one nor before. -/
lemma opens_renew {earlier later : List (RuntimeEventEnvelope ν)} (hearlier : earlier ⊆ rest) (hlater : later ⊆ rest)
    {x : RuntimeEventEnvelope ν} (hx : x ∈ rest) :
    (r.receive page).opens (earlier.map (r.renew page)) (later.map (r.renew page)) (r.renew page x) =
      r.opens (page ++ earlier) later x := by
  unfold Reader.opens
  rw [h.messageOf_renew hx, h.filterMap_renew hearlier, h.filterMap_renew hlater, List.filterMap_append]
  cases messageOf x with
  | none => rfl
  | some m =>
    rw [Option.any_some, Option.any_some, decide_eq_decide, List.mem_append, not_or, Reader.receive_texts]
    split_ifs with hin
    · simp [hin]
    · simp [hin]

omit h in
lemma renew_of_opens {earlier later : List (RuntimeEventEnvelope ν)} {x : RuntimeEventEnvelope ν}
    (hopens : r.opens (page ++ earlier) later x = true) : r.opens [] page x = false ∧ r.renew page x = x := by
  have hnot : r.opens [] page x = false := by
    obtain ⟨m,hm,hnone⟩ := (Option.any_eq_true _ _).mp hopens
    refine PageCut.opens_eq_false (fun m' hm' => ?_) []
    rw [hm] at hm'
    cases hm'
    refine Or.inr fun hin => (of_decide_eq_true hnone).2.1 ?_
    rw [List.filterMap_append]
    exact List.mem_append_left _ hin
  exact ⟨hnot,if_neg (by rw [hnot]; exact Bool.false_ne_true)⟩

/-- A later page cuts what is left as it cut what there was. -/
lemma pageBreak_next {earlier later after : List (RuntimeEventEnvelope ν)} (hrest : rest = earlier ++ (later ++ after))
    (hbreak : PageBreak operations sessionId events r (page ++ earlier) later after) :
    PageBreak (afterPage operations sessionId events r table page) sessionId events (r.receive page)
      (earlier.map (r.renew page)) (later.map (r.renew page)) (after.map (r.renew page)) := by
  have hearlier : earlier ⊆ rest := hrest ▸ List.subset_append_left _ _
  have hlater : later ⊆ rest := by
    rw [hrest]
    exact List.Subset.trans (List.subset_append_left _ _) (List.subset_append_right _ _)
  have hafter : after ⊆ rest := by
    rw [hrest]
    exact List.Subset.trans (List.subset_append_right _ _) (List.subset_append_right _ _)
  have hopened : ∀ {x}, x ∈ after.map (r.renew page) →
      (r.receive page).opens (earlier.map (r.renew page)) (later.map (r.renew page)) x = true →
        x ∈ after ∧ r.opens (page ++ earlier) later x = true ∧ r.opens [] page x = false := by
    intro x hx hopens
    obtain ⟨y,hy,rfl⟩ := List.mem_map.mp hx
    rw [h.opens_renew hearlier hlater (hafter hy)] at hopens
    obtain ⟨hnot,heq⟩ := renew_of_opens hopens
    rw [heq]
    exact ⟨hy,hopens,hnot⟩
  refine ⟨?_,fun x hx hopens => ?_,fun x hx hopens => ?_,fun x hx hopens f hf hkey => ?_,fun x hx hopens d hd hkey => ?_⟩
  · rw [List.pairwise_map]
    refine hbreak.together.imp_of_mem fun {a b} ha hb hab => ?_
    rw [h.opens_renew hearlier hlater (hafter ha), h.opens_renew hearlier hlater (hafter hb)]
    exact hab
  · obtain ⟨hx,hopens,-⟩ := hopened hx hopens
    exact hbreak.text x hx hopens
  · obtain ⟨hx,hopens,-⟩ := hopened hx hopens
    rw [EventReplay.numberOf, h.sequences_afterPage]
    cases hsome : table.get? (runtimeEventSequenceKey (reopened x)) with
    | none => rfl
    | some n =>
      obtain hold | ⟨y,hy,hkey⟩ := h.numbers.new _ n hsome
      · have hnone := hbreak.unnumbered x hx hopens
        rw [EventReplay.numberOf, hold] at hnone
        cases hnone
      · exact absurd hkey (hbreak.unused x hx hopens y hy)
  · obtain ⟨hx,hopens,hnot⟩ := hopened hx hopens
    obtain ⟨hold,-⟩ | ⟨y,hy,-,rfl⟩ | ⟨y,hy,hopensy,rfl⟩ := h.mem_replayed hf
    · exact hbreak.unused x hx hopens f (h.cut.replayed_eq ▸ List.mem_append_left _ hold) hkey
    · exact hbreak.unused x hx hopens f (h.back_replayed hy) hkey
    · obtain ⟨p,hp⟩ := text_of_opens hopensy
      obtain ⟨q,hq⟩ := text_of_opens hopens
      obtain rfl := eq_of_key (h.ready.numbers.order.imp fun hab => hab.1) (h.rest_sub hy) (h.rest_sub (hafter hx))
        (key_of_reopened hp hq hkey)
      rw [hnot] at hopensy
      cases hopensy
  · obtain ⟨hx,hopens,-⟩ := hopened hx hopens
    obtain hd | hd := mem_deliveredIn_afterPage hd
    · exact hbreak.unrecorded x hx hopens d hd hkey
    · obtain ⟨u,hu,delta,-,heq⟩ := mem_pageDeliveries.mp hd
      rw [heq] at hkey
      exact (List.pairwise_append.mp h.cut.distinct).2.2 u hu x (hafter hx) hkey

end PageRead
/-- A page that is not empty leaves the provider ready for the next one, and that is cut as the list was. -/
lemma ready_next {limit : Option ℕ} (hready : PageReady operations sessionId events afterSequence r)
    (hbreaks : PageBreaks operations sessionId events limit r) (hnamed : NamedTexts events)
    (htable : Renumbered operations sessionId events afterSequence r table) (hne : cutPage limit (r.lacked events) ≠ []) :
    PageReady (afterPage operations sessionId events r table (cutPage limit (r.lacked events))) sessionId events
        (some (pageCursor afterSequence table (cutPage limit (r.lacked events)))) (r.receive (cutPage limit (r.lacked events))) ∧
      PageBreaks (afterPage operations sessionId events r table (cutPage limit (r.lacked events))) sessionId events limit
        (r.receive (cutPage limit (r.lacked events))) := by
  have hdistinct := hready.numbers.order.imp fun hab => hab.1
  cases limit with
  | none =>
    obtain ⟨front,back,hcut⟩ := pageCut_take (r.lacked events).length hnamed hready.texts.empty hdistinct
    rw [List.take_length, List.drop_length] at hcut
    have hread : PageRead operations sessionId events afterSequence r front back (r.lacked events) [] table :=
      ⟨hready,htable,hcut,⟨List.Pairwise.nil,by simp,by simp,by simp,by simp⟩,hne⟩
    exact ⟨hread.pageReady,fun n hn => (nomatch hn)⟩
  | some n =>
    obtain ⟨front,back,hcut⟩ := pageCut_take n hnamed hready.texts.empty hdistinct
    have hpos : 0 < n := Nat.pos_of_ne_zero fun hzero => hne (by rw [hzero]; rfl)
    have hlacked : r.lacked events ≠ [] := fun hnil => hne (by rw [hnil]; exact List.take_nil)
    have hfirst := hbreaks n rfl 0 (List.length_pos_iff.mpr hlacked)
    rw [Nat.zero_mul, List.take_zero, List.drop_zero, Nat.zero_add, Nat.one_mul] at hfirst
    have hread : PageRead operations sessionId events afterSequence r front back ((r.lacked events).take n)
      ((r.lacked events).drop n) table := ⟨hready,htable,hcut,hfirst,hne⟩
    refine ⟨hread.pageReady,fun n' hn k hk => ?_⟩
    cases hn
    rw [show cutPage (some n) (r.lacked events) = (r.lacked events).take n from rfl] at hk ⊢
    rw [hcut.lacked_receive hfirst.text, List.length_map, List.length_drop] at hk
    have hlater := hbreaks n rfl (k + 1) (by omega)
    rw [hcut.lacked_receive hfirst.text, ← List.map_take, ← List.map_drop, ← List.map_take, ← List.map_drop]
    refine hread.pageBreak_next ?_ ?_
    · rw [Nat.add_mul, Nat.one_mul, ← List.drop_drop, List.take_append_drop, List.take_append_drop]
    · have hshift : ∀ j, (j + 1) * n = n + j * n := fun j => by rw [Nat.succ_mul, Nat.add_comm]
      rw [hshift (k + 1), hshift k, List.take_add, ← List.drop_drop, ← List.drop_drop] at hlater
      rw [hshift k]
      exact hlater

end Next
end OmniagentPlus.OmnigentTransport
