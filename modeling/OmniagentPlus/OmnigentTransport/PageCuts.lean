import OmniagentPlus.OmnigentTransport.HistoryPaging

/-! What a page leaves of what a reader lacks: the rest as it was, but where the page ends inside a message
of which the reader had nothing, the rest of the message as continuations. -/
namespace OmniagentPlus.OmnigentTransport
open OmniagentPlus.Foundation OmniagentPlus.CoreContracts

section Breaks
variable {ν : Type}

/-- The turn and the message of a text event. -/
def messageOf (e : RuntimeEventEnvelope ν) : Option (Text × Text) := (turnText e).map fun p => (p.1,messageKey e)

/-- A text of which nothing was handed out, as the rest of a message of which something was. -/
def reopened (e : RuntimeEventEnvelope ν) : RuntimeEventEnvelope ν :=
  match turnText e with
  | none => e
  | some (_,delta) => EventReplay.continuation e delta.length delta

namespace Reader

/-- With the page the reader comes to have text of the message, of which it had none. -/
def opens (r : Reader) (earlier page : List (RuntimeEventEnvelope ν)) (e : RuntimeEventEnvelope ν) : Bool :=
  (messageOf e).any fun m => decide (r.texts m.1 m.2 = none ∧ m ∉ earlier.filterMap messageOf ∧ m ∈ page.filterMap messageOf)

/-- What the page makes of an event that is still to come. -/
def renew (r : Reader) (page : List (RuntimeEventEnvelope ν)) (e : RuntimeEventEnvelope ν) : RuntimeEventEnvelope ν :=
  if r.opens [] page e then reopened e else e

end Reader

/-- Where a page ends inside messages, what is left of them is the end of what is left, and their texts, none of them
empty, neither had been handed out nor have numbers as continuations. -/
structure PageBreak (operations : List (ReplayOperation ν)) (sessionId : Text) (events : List (RuntimeEventEnvelope ν))
    (r : Reader) (earlier page rest : List (RuntimeEventEnvelope ν)) : Prop where
  together : rest.Pairwise fun a b => r.opens earlier page a = true → r.opens earlier page b = true
  text : ∀ e ∈ rest, r.opens earlier page e = true → isPlain e = false
  unnumbered : ∀ e ∈ rest, r.opens earlier page e = true →
    (EventReplay.after operations).numberOf sessionId (reopened e) = none
  unused : ∀ e ∈ rest, r.opens earlier page e = true → ∀ f ∈ r.replayed events,
    runtimeEventSequenceKey f ≠ runtimeEventSequenceKey (reopened e)
  unrecorded : ∀ e ∈ rest, r.opens earlier page e = true → ∀ d ∈ deliveredIn (deliveriesOf operations) sessionId events,
    d.key ≠ runtimeEventSequenceKey e

instance decidablePageBreak (operations : List (ReplayOperation ν)) (sessionId : Text) (events : List (RuntimeEventEnvelope ν))
    (r : Reader) (earlier page rest : List (RuntimeEventEnvelope ν)) :
    Decidable (PageBreak operations sessionId events r earlier page rest) :=
  decidable_of_iff
    ((rest.Pairwise fun a b => r.opens earlier page a = true → r.opens earlier page b = true) ∧
      (∀ e ∈ rest, r.opens earlier page e = true → isPlain e = false) ∧
      (∀ e ∈ rest, r.opens earlier page e = true →
        (EventReplay.after operations).numberOf sessionId (reopened e) = none) ∧
      (∀ e ∈ rest, r.opens earlier page e = true → ∀ f ∈ r.replayed events,
        runtimeEventSequenceKey f ≠ runtimeEventSequenceKey (reopened e)) ∧
      ∀ e ∈ rest, r.opens earlier page e = true → ∀ d ∈ deliveredIn (deliveriesOf operations) sessionId events,
        d.key ≠ runtimeEventSequenceKey e)
    ⟨fun h => ⟨h.1,h.2.1,h.2.2.1,h.2.2.2.1,h.2.2.2.2⟩,fun h => ⟨h.together,h.text,h.unnumbered,h.unused,h.unrecorded⟩⟩

/-- How the pages of `limit` events cut what the reader lacks. -/
def PageBreaks (operations : List (ReplayOperation ν)) (sessionId : Text) (events : List (RuntimeEventEnvelope ν))
    (limit : Option ℕ) (r : Reader) : Prop :=
  ∀ n ∈ limit, ∀ k < (r.lacked events).length, PageBreak operations sessionId events r ((r.lacked events).take (k * n))
    (((r.lacked events).drop (k * n)).take n) ((r.lacked events).drop ((k + 1) * n))

instance decidablePageBreaks (operations : List (ReplayOperation ν)) (sessionId : Text) (events : List (RuntimeEventEnvelope ν))
    (limit : Option ℕ) (r : Reader) : Decidable (PageBreaks operations sessionId events limit r) :=
  inferInstanceAs (Decidable (∀ n ∈ limit, ∀ k < (r.lacked events).length, PageBreak operations sessionId events r
    ((r.lacked events).take (k * n)) (((r.lacked events).drop (k * n)).take n) ((r.lacked events).drop ((k + 1) * n))))

end Breaks
section Received
variable {ν : Type} {r : Reader}

lemma messageOf_continuation {e : RuntimeEventEnvelope ν} {turnId delta : Text} (h : turnText e = some (turnId,delta))
    (hid : TextEventId e.eventId) (length : ℕ) (rest : Text) :
    messageOf (EventReplay.continuation e length rest) = some (turnId,messageKey e) := by
  have htext : turnText (EventReplay.continuation e length rest) = some (turnId,rest) := turnText_withText h _ _
  rw [messageOf, htext, messageKey, EventReplay.continuation, runtimeTextMessageId_continuation hid]
  rfl

lemma currentText_of_not_mem {l : List (RuntimeEventEnvelope ν)} {turnId key : Text}
    (h : (turnId,key) ∉ l.filterMap messageOf) : currentText none l turnId key = [] := by
  rw [currentText, List.flatten_eq_nil_iff]
  intro d hd
  obtain ⟨e,he,hchunk⟩ := List.mem_filterMap.mp hd
  obtain ⟨htext,hkey⟩ := chunk_eq_some.mp hchunk
  refine absurd (List.mem_filterMap.mpr ⟨e,he,?_⟩) h
  rw [messageOf, htext]
  exact congrArg (fun key => some (turnId,key)) hkey

namespace Reader

lemma receive_concat (r : Reader) (l : List (RuntimeEventEnvelope ν)) (e : RuntimeEventEnvelope ν) :
    r.receive (l ++ [e]) = (r.receive l).take e := by
  rw [receive, List.foldl_append]
  rfl

lemma receive_congr {l l' : List (RuntimeEventEnvelope ν)} (h : l.map content = l'.map content) : r.receive l = r.receive l' := by
  induction l generalizing r l' with
  | nil =>
    obtain rfl := List.map_eq_nil_iff.mp h.symm
    rfl
  | cons e l ih =>
    cases l' with
    | nil => cases h
    | cons e' l' =>
      obtain ⟨he,hl⟩ := List.cons.inj h
      rw [receive, List.foldl_cons, take_congr he]
      exact ih hl

/-- Of a message with text in the page the reader has that text behind what it had. -/
lemma receive_texts (l : List (RuntimeEventEnvelope ν)) (turnId key : Text) : (r.receive l).texts turnId key =
    if (turnId,key) ∈ l.filterMap messageOf then some ((r.texts turnId key).getD [] ++ currentText none l turnId key)
    else r.texts turnId key := by
  induction l using List.reverseRecOn with
  | nil => rfl
  | append_singleton l e ih =>
    have hone : currentText none [e] turnId key = (chunk none turnId key e).getD [] := by
      rw [currentText_cons]
      exact List.append_nil _
    have hmem : (turnId,key) ∈ (l ++ [e]).filterMap messageOf ↔
        (turnId,key) ∈ l.filterMap messageOf ∨ messageOf e = some (turnId,key) := by
      simp [List.filterMap_append]
    rw [receive_concat, take]
    dsimp only
    rw [addText, currentText_append, hone]
    simp only [hmem, messageOf]
    cases ht : turnText e with
    | none =>
      have hchunk : chunk none turnId key e = none := by rw [chunk, ht]; rfl
      rw [hchunk, Option.getD_none, List.append_nil]
      simpa using ih
    | some p =>
      obtain ⟨t,delta⟩ := p
      simp only [Option.map_some]
      by_cases hsame : turnId = t ∧ key = messageKey e
      · obtain ⟨rfl,rfl⟩ := hsame
        have hchunk : chunk none turnId (messageKey e) e = some delta := chunk_eq_some.mpr ⟨ht,rfl⟩
        rw [if_pos ⟨rfl,rfl⟩, if_pos (Or.inr rfl), ih, hchunk, Option.getD_some, ← List.append_assoc]
        split_ifs with hin
        · rfl
        · rw [currentText_of_not_mem hin, List.append_nil]
      · have hchunk : chunk none turnId key e = none := by
          rw [chunk, ht, Option.bind_some]
          exact if_neg fun hboth => hsame ⟨hboth.1.symm,hboth.2.symm⟩
        have hnot : ¬(some (t,messageKey e) = some (turnId,key)) := by
          rintro ⟨⟩
          exact hsame ⟨rfl,rfl⟩
        rw [if_neg hsame, ih, hchunk, Option.getD_none, List.append_nil]
        simp only [hnot, or_false]

lemma mem_handed_receive (l : List (RuntimeEventEnvelope ν)) (key : Text) : key ∈ (r.receive l).handed ↔
    key ∈ r.handed ∨ ∃ e ∈ l, isPlain e = true ∧ runtimeEventSequenceKey e = key := by
  induction l using List.reverseRecOn with
  | nil => simp [receive]
  | append_singleton l e ih =>
    rw [receive_concat, take]
    dsimp only
    cases hp : isPlain e with
    | true =>
      rw [if_pos rfl, List.mem_cons, ih]
      constructor
      · rintro (rfl | hkey | ⟨f,hf,hfp⟩)
        · exact Or.inr ⟨e,List.mem_append_right _ List.mem_cons_self,hp,rfl⟩
        · exact Or.inl hkey
        · exact Or.inr ⟨f,List.mem_append_left _ hf,hfp⟩
      · rintro (hkey | ⟨f,hf,hfp,hfk⟩)
        · exact Or.inr (Or.inl hkey)
        · obtain hf | hf := List.mem_append.mp hf
          · exact Or.inr (Or.inr ⟨f,hf,hfp,hfk⟩)
          · obtain rfl := List.mem_singleton.mp hf
            exact Or.inl hfk.symm
    | false =>
      rw [if_neg Bool.false_ne_true, ih]
      refine or_congr_right ⟨?_,?_⟩
      · rintro ⟨f,hf,hfp⟩
        exact ⟨f,List.mem_append_left _ hf,hfp⟩
      · rintro ⟨f,hf,hfp,hfk⟩
        obtain hf | hf := List.mem_append.mp hf
        · exact ⟨f,hf,hfp,hfk⟩
        · obtain rfl := List.mem_singleton.mp hf
          rw [hp] at hfp
          cases hfp

lemma has_receive (l : List (RuntimeEventEnvelope ν)) (e : RuntimeEventEnvelope ν) : (r.receive l).has e = true ↔
    r.has e = true ∨ isPlain e = true ∧ ∃ f ∈ l, isPlain f = true ∧ runtimeEventSequenceKey f = runtimeEventSequenceKey e := by
  simp only [has, Bool.and_eq_true, List.contains_iff_mem, mem_handed_receive]
  tauto

end Reader
end Received
section Cut
variable {ν : Type} {r : Reader}

lemma undelivered_append (D : Text → Text → Option Text) (before l m : List (RuntimeEventEnvelope ν)) :
    undelivered D before (l ++ m) = undelivered D before l ++ undelivered D (before ++ l) m := by
  induction l generalizing before with
  | nil => simp [undelivered]
  | cons e l ih => simp [undelivered, ih]

/-- Of an event at most one is sent. -/
lemma cut_cases (D : Text → Text → Option Text) (before : List (RuntimeEventEnvelope ν)) (e : RuntimeEventEnvelope ν) :
    cut D before e = [] ∨ ∃ x, cut D before e = [x] := by
  unfold cut
  cases turnText e with
  | none => exact Or.inr ⟨e,rfl⟩
  | some p =>
    dsimp only
    cases D p.1 (messageKey e) with
    | none => exact Or.inr ⟨e,rfl⟩
    | some text =>
      dsimp only
      split_ifs
      · exact Or.inl rfl
      · exact Or.inr ⟨_,rfl⟩

/-- Wherever what is sent is cut, the history can be. -/
lemma undelivered_split (D : Text → Text → Option Text) (p : RuntimeEventEnvelope ν → Bool) (n : ℕ)
    (before es : List (RuntimeEventEnvelope ν)) : ∃ front back, es = front ++ back ∧
      (undelivered D before front).filter p = ((undelivered D before es).filter p).take n ∧
      (undelivered D (before ++ front) back).filter p = ((undelivered D before es).filter p).drop n := by
  induction es generalizing n before with
  | nil => exact ⟨[],[],rfl,List.take_nil.symm,List.drop_nil.symm⟩
  | cons e es ih =>
    cases n with
    | zero => exact ⟨[],e :: es,rfl,rfl,by rw [List.append_nil]; rfl⟩
    | succ n =>
      have hone : (cut D before e).filter p = [] ∨ ∃ x, (cut D before e).filter p = [x] := by
        obtain hnil | ⟨x,hx⟩ := cut_cases D before e
        · exact Or.inl (by rw [hnil]; rfl)
        · rw [hx, List.filter_singleton]
          cases p x with
          | true => exact Or.inr ⟨x,rfl⟩
          | false => exact Or.inl rfl
      simp only [undelivered, List.filter_append]
      obtain hnil | ⟨x,hx⟩ := hone
      · obtain ⟨front,back,rfl,hfront,hback⟩ := ih (n + 1) (before ++ [e])
        refine ⟨e :: front,back,rfl,?_,?_⟩
        · rw [undelivered, List.filter_append, hnil, List.nil_append, List.nil_append]
          exact hfront
        · rw [hnil, List.nil_append, List.append_cons]
          exact hback
      · obtain ⟨front,back,rfl,hfront,hback⟩ := ih n (before ++ [e])
        refine ⟨e :: front,back,rfl,?_,?_⟩
        · rw [undelivered, List.filter_append, hx, hfront]
          rfl
        · rw [hx, List.append_cons]
          exact hback

/-- A page of what the reader lacks, with the part of the history that it is of. -/
structure PageCut (r : Reader) (events front back page rest : List (RuntimeEventEnvelope ν)) : Prop where
  events_eq : events = front ++ back
  page_eq : (undelivered r.texts [] front).filter (fun e => !r.has e) = page
  rest_eq : (undelivered r.texts front back).filter (fun e => !r.has e) = rest
  named : NamedTexts events
  empty : ∀ e ∈ events, ∀ p ∈ turnText e, p.2 = [] → (r.texts p.1 (messageKey e)).isSome = true → r.has e = true
  distinct : (page ++ rest).Pairwise fun a b => runtimeEventSequenceKey a ≠ runtimeEventSequenceKey b

lemma pageCut_take (n : ℕ) {events : List (RuntimeEventEnvelope ν)} (hnamed : NamedTexts events)
    (hempty : ∀ e ∈ events, ∀ p ∈ turnText e, p.2 = [] → (r.texts p.1 (messageKey e)).isSome = true → r.has e = true)
    (hdistinct : (r.lacked events).Pairwise fun a b => runtimeEventSequenceKey a ≠ runtimeEventSequenceKey b) :
    ∃ front back, PageCut r events front back ((r.lacked events).take n) ((r.lacked events).drop n) := by
  obtain ⟨front,back,hevents,hpage,hrest⟩ := undelivered_split r.texts (fun e => !r.has e) n [] events
  refine ⟨front,back,hevents,hpage,?_,hnamed,hempty,?_⟩
  · rw [List.nil_append] at hrest
    exact hrest
  · rwa [List.take_append_drop]

namespace PageCut
variable {events front back page rest : List (RuntimeEventEnvelope ν)} (h : PageCut r events front back page rest)
include h

lemma lacked_eq : r.lacked events = page ++ rest := by
  rw [Reader.lacked, Reader.replayed, h.events_eq, undelivered_append, List.filter_append, List.nil_append, h.page_eq,
    h.rest_eq]

lemma replayed_eq : r.replayed events = undelivered r.texts [] front ++ undelivered r.texts front back := by
  rw [Reader.replayed, h.events_eq, undelivered_append, List.nil_append]

/-- The page brings of each message what lies behind the text that the reader had. -/
lemma currentText_page (turnId key : Text) :
    currentText none page turnId key = (currentText none front turnId key).drop (r.textLength turnId key) := by
  have hsub : ∀ {e}, e ∈ front → e ∈ events := fun he => h.events_eq ▸ List.mem_append_left _ he
  have hcontent := @replayed_due ν r [] front (fun e he => h.named e (hsub he)) fun e he => h.empty e (hsub he)
  rw [h.page_eq] at hcontent
  rw [currentText_congr hcontent]
  exact r.currentText_due front turnId key

lemma textLength_receive (turnId key : Text) : (r.receive page).textLength turnId key =
    max (r.textLength turnId key) (currentText none front turnId key).length := by
  have hpage := congrArg List.length (h.currentText_page turnId key)
  rw [List.length_drop] at hpage
  unfold Reader.textLength at hpage ⊢
  rw [Reader.receive_texts]
  split_ifs with hin
  · rw [Option.getD_some, List.length_append]
    omega
  · rw [currentText_of_not_mem hin, List.length_nil] at hpage
    omega

/-- What is sent again of the part that the page is of was sent before, and the reader has it. -/
lemma mem_undelivered_front {x : RuntimeEventEnvelope ν} (hx : x ∈ undelivered (r.receive page).texts [] front) :
    x ∈ undelivered r.texts [] front ∧ (r.receive page).has x = true := by
  have hprefix : ∀ (es before : List (RuntimeEventEnvelope ν)), before ++ es = front →
      x ∈ undelivered (r.receive page).texts before es → x ∈ undelivered r.texts before es ∧
        ∀ m ∈ messageOf x, (r.receive page).texts m.1 m.2 = none := by
    intro es
    induction es with
    | nil => exact fun _ _ hx => (nomatch hx)
    | cons e es ih =>
      intro before heq hx
      rw [undelivered, List.mem_append] at hx
      rw [undelivered, List.mem_append]
      obtain hx | hx := hx
      · unfold cut at hx ⊢
        cases ht : turnText e with
        | none =>
          rw [ht] at hx
          obtain rfl := List.mem_singleton.mp hx
          exact ⟨Or.inl hx,by simp [messageOf, ht]⟩
        | some p =>
          obtain ⟨turnId,delta⟩ := p
          rw [ht] at hx
          dsimp only at hx ⊢
          cases htexts : (r.receive page).texts turnId (messageKey e) with
          | none =>
            have hnone : r.texts turnId (messageKey e) = none := by
              rw [Reader.receive_texts] at htexts
              split_ifs at htexts
              exact htexts
            rw [htexts] at hx
            obtain rfl := List.mem_singleton.mp hx
            rw [hnone]
            exact ⟨Or.inl hx,by simpa [messageOf, ht] using htexts⟩
          | some text =>
            -- The reader has the message's text of this part.
            have hlength := h.textLength_receive turnId (messageKey e)
            have hchunk : chunk none turnId (messageKey e) e = some delta := chunk_eq_some.mpr ⟨ht,rfl⟩
            rw [Reader.textLength, htexts, ← heq, currentText_append, currentText_cons, hchunk, Option.getD_some,
              Option.getD_some, List.length_append, List.length_append] at hlength
            have hnil : delta.drop (text.length - (currentText none before turnId (messageKey e)).length) = [] :=
              List.drop_eq_nil_of_le (by omega)
            rw [htexts] at hx
            dsimp only at hx
            rw [hnil] at hx
            cases hx
      · exact (ih (before ++ [e]) (by rw [← heq, List.append_assoc]; rfl) hx).imp_left Or.inr
  obtain ⟨hold,hnone⟩ := hprefix front [] rfl hx
  refine ⟨hold,?_⟩
  rw [Reader.has_receive]
  by_cases hhas : r.has x = true
  · exact Or.inl hhas
  · have hpage : x ∈ page := by
      rw [← h.page_eq]
      exact List.mem_filter.mpr ⟨hold,by simpa using hhas⟩
    cases hp : isPlain x with
    | true => exact Or.inr ⟨rfl,x,hpage,hp,rfl⟩
    | false =>
      obtain ⟨turnId,delta,ht,-⟩ := text_of_not_isPlain hp
      have hmessage : messageOf x = some (turnId,messageKey x) := by rw [messageOf, ht]; rfl
      have hsome := hnone _ hmessage
      rw [Reader.receive_texts, if_pos (List.mem_filterMap.mpr ⟨x,hpage,hmessage⟩)] at hsome
      cases hsome

omit h in
lemma opens_eq_false {x : RuntimeEventEnvelope ν} (hx : ∀ m ∈ messageOf x, (r.texts m.1 m.2).isSome = true ∨ m ∉ page.filterMap messageOf)
    (earlier : List (RuntimeEventEnvelope ν)) : r.opens earlier page x = false := by
  rw [← Bool.not_eq_true, Reader.opens, Option.any_eq_true]
  rintro ⟨m,hm,hopens⟩
  obtain ⟨hnone,-,hin⟩ := of_decide_eq_true hopens
  obtain hsome | hnot := hx m hm
  · rw [hnone] at hsome
    cases hsome
  · exact hnot hin

/-- What is sent again of the part behind the page is what was sent before, the texts of messages of which the page is the first
as continuations. -/
lemma undelivered_back : undelivered (r.receive page).texts front back =
    (undelivered r.texts front back).flatMap fun x =>
      if r.opens [] page x then if isPlain x then [] else [reopened x] else [x] := by
  have hsuffix : ∀ (es before : List (RuntimeEventEnvelope ν)), front <+: before → es ⊆ events →
      undelivered (r.receive page).texts before es = (undelivered r.texts before es).flatMap fun x =>
        if r.opens [] page x then if isPlain x then [] else [reopened x] else [x] := by
    intro es
    induction es with
    | nil => exact fun _ _ _ => rfl
    | cons e es ih =>
      intro before hfront hsub
      obtain ⟨he,hes⟩ := List.cons_subset.mp hsub
      rw [undelivered, undelivered, List.flatMap_append, ih (before ++ [e]) (hfront.trans (List.prefix_append _ _)) hes]
      congr 1
      unfold cut
      cases ht : turnText e with
      | none =>
        have hopens := @opens_eq_false ν r page e (by simp [messageOf, ht]) []
        simp [hopens]
      | some p =>
        obtain ⟨turnId,delta⟩ := p
        have hmessage : messageOf e = some (turnId,messageKey e) := by rw [messageOf, ht]; rfl
        have hlength := h.textLength_receive turnId (messageKey e)
        have hshort : (currentText none front turnId (messageKey e)).length ≤
            (currentText none before turnId (messageKey e)).length := by
          obtain ⟨more,rfl⟩ := hfront
          rw [currentText_append, List.length_append]
          exact Nat.le_add_right _ _
        unfold Reader.textLength at hlength
        dsimp only
        cases htexts : r.texts turnId (messageKey e) with
        | some text =>
          have hsome : ((r.receive page).texts turnId (messageKey e)).isSome = true := by
            rw [Reader.receive_texts, htexts]
            split_ifs <;> rfl
          obtain ⟨text',htexts'⟩ := Option.isSome_iff_exists.mp hsome
          rw [htexts, htexts', Option.getD_some, Option.getD_some] at hlength
          have hsame : text'.length - (currentText none before turnId (messageKey e)).length =
              text.length - (currentText none before turnId (messageKey e)).length := by
            omega
          rw [htexts']
          dsimp only
          rw [hsame]
          generalize delta.drop (text.length - (currentText none before turnId (messageKey e)).length) = left
          cases hempty : left.isEmpty with
          | true => rfl
          | false =>
            have hcontinued := messageOf_continuation ht (h.named e he (by rw [ht]; rfl)) delta.length left
            have hopens := @opens_eq_false ν r page (EventReplay.continuation e delta.length left) (by
              rw [hcontinued]
              rintro m ⟨⟩
              exact Or.inl (by rw [htexts]; rfl)) []
            simp [hopens]
        | none =>
          rw [htexts, Option.getD_none, List.length_nil, Nat.zero_max] at hlength
          rw [Reader.receive_texts] at hlength ⊢
          rw [htexts] at hlength ⊢
          by_cases hin : (turnId,messageKey e) ∈ page.filterMap messageOf
          · have hopens : r.opens [] page e = true := by
              rw [Reader.opens, hmessage]
              exact decide_eq_true ⟨htexts,List.not_mem_nil,hin⟩
            rw [if_pos hin] at hlength ⊢
            rw [Option.getD_some] at hlength
            have hzero : ((none.getD []) ++ currentText none page turnId (messageKey e) : Text).length -
                (currentText none before turnId (messageKey e)).length = 0 := by
              omega
            dsimp only
            rw [hzero, List.drop_zero, List.flatMap_singleton, hopens, if_pos rfl, isPlain_of_text ht, reopened, ht]
          · have hopens := @opens_eq_false ν r page e (by
              rw [hmessage]
              rintro m ⟨⟩
              exact Or.inr hin) []
            rw [if_neg hin]
            simp [hopens]
  exact hsuffix back front List.prefix_rfl (h.events_eq ▸ List.subset_append_right _ _)

/-- Of what is still to come the reader was not handed more. -/
lemma has_receive_eq {x : RuntimeEventEnvelope ν} (hx : x ∈ undelivered r.texts front back) :
    (r.receive page).has x = r.has x := by
  cases hhas : r.has x with
  | true => exact (Reader.has_receive page x).mpr (Or.inl hhas)
  | false =>
    rw [← Bool.not_eq_true, Reader.has_receive, hhas]
    rintro (hfalse | ⟨-,y,hy,-,hkey⟩)
    · cases hfalse
    · have hrest : x ∈ rest := by
        rw [← h.rest_eq]
        exact List.mem_filter.mpr ⟨hx,by rw [hhas]; rfl⟩
      exact (List.pairwise_append.mp h.distinct).2.2 y hy x hrest hkey

omit h in
lemma has_of_not_isPlain {x : RuntimeEventEnvelope ν} (hx : isPlain x = false) : r.has x = false := by
  rw [Reader.has, hx, Bool.false_and]

omit h in
lemma isPlain_reopened (x : RuntimeEventEnvelope ν) : isPlain (reopened x) = isPlain x := by
  unfold reopened
  cases ht : turnText x with
  | none => rfl
  | some p =>
    obtain ⟨turnId,delta⟩ := p
    exact (isPlain_of_text (turnText_withText ht _ delta)).trans (isPlain_of_text ht).symm

lemma mem_rest {x : RuntimeEventEnvelope ν} (hx : x ∈ undelivered r.texts front back) (hhas : r.has x = false) : x ∈ rest := by
  rw [← h.rest_eq]
  exact List.mem_filter.mpr ⟨hx,by rw [hhas]; rfl⟩

/-- What the reader lacks after the page is what it lacked behind it. -/
lemma lacked_receive (htext : ∀ e ∈ rest, r.opens [] page e = true → isPlain e = false) :
    (r.receive page).lacked events = rest.map (r.renew page) := by
  have hfront : (undelivered (r.receive page).texts [] front).filter (fun e => !(r.receive page).has e) = [] := by
    rw [List.filter_eq_nil_iff]
    intro x hx
    rw [(h.mem_undelivered_front hx).2]
    exact Bool.false_ne_true
  rw [Reader.lacked, Reader.replayed, h.events_eq, undelivered_append, List.filter_append, hfront, List.nil_append,
    List.nil_append, h.undelivered_back, ← h.rest_eq]
  have hpieces : ∀ l : List (RuntimeEventEnvelope ν), l ⊆ undelivered r.texts front back →
      (l.flatMap fun x => if r.opens [] page x then if isPlain x then [] else [reopened x] else [x]).filter
        (fun e => !(r.receive page).has e) = (l.filter fun e => !r.has e).map (r.renew page) := by
    intro l
    induction l with
    | nil => exact fun _ => rfl
    | cons x l ih =>
      intro hsub
      obtain ⟨hx,hl⟩ := List.cons_subset.mp hsub
      rw [List.flatMap_cons, List.filter_append, ih hl, List.filter_cons]
      cases hopens : r.opens [] page x with
      | false =>
        have hrenew : r.renew page x = x := if_neg (by rw [hopens]; exact Bool.false_ne_true)
        rw [if_neg Bool.false_ne_true, List.filter_singleton, h.has_receive_eq hx]
        cases r.has x <;> simp [hrenew]
      | true =>
        have hrenew : r.renew page x = reopened x := if_pos hopens
        rw [if_pos rfl]
        cases hp : isPlain x with
        | true =>
          -- A text of no characters would be lost.
          have hhas : r.has x = true := by
            by_contra hnot
            rw [htext x (h.mem_rest hx (by simpa using hnot)) hopens] at hp
            cases hp
          rw [if_pos rfl, hhas]
          rfl
        | false =>
          have hcontinued : (r.receive page).has (reopened x) = false :=
            has_of_not_isPlain ((isPlain_reopened x).trans hp)
          rw [if_neg Bool.false_ne_true, List.filter_singleton, hcontinued, has_of_not_isPlain hp]
          simp [hrenew]
  exact hpieces _ (List.Subset.refl _)

end PageCut
end Cut
end OmniagentPlus.OmnigentTransport
